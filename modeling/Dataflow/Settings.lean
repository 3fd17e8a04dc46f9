import Dataflow.Error
import Dataflow.Json.Record
import Dataflow.Toml.Printer
import Dataflow.Toml.Reader

/-! The names that the library relies on inside a version store: packages of the basic module types,
tags of variables, and ports. All of them can be set in a file; what a file leaves out keeps its
default, and keys that are not known are passed over. -/

namespace Dataflow

structure Settings.Packages where
  basic : String := "org.vistrails.vistrails.basic"
  pythoncalc : String := "org.vistrails.vistrails.pythoncalc"
deriving DecidableEq

structure Settings.Tags where
  variablesRoot : String := "dat-vars"
  variableStart : String := "dat-var-"
deriving DecidableEq

structure Settings.Ports where
  output : String := "value"
  pipe : String := "InternalPipe"
  value : String := "value"
deriving DecidableEq

structure Settings where
  packages : Settings.Packages := {}
  tags : Settings.Tags := {}
  ports : Settings.Ports := {}
  logFilter : String := "info,dat_rs=debug"
  defaultVariableName : String := "data"
deriving DecidableEq

namespace Settings

instance : Inhabited Settings := ⟨{}⟩

/-- A type of the basic package. -/
def basic (s : Settings) (name : String) : TypeName := ⟨s.packages.basic, name⟩

/-- The tag of a variable's version. -/
def variableTag (s : Settings) (name : String) : String := s.tags.variableStart ++ name

/-- The name of the variable that a tag belongs to, if it belongs to one. -/
def variableOfTag? (s : Settings) (tag : String) : Option String :=
  let start := s.tags.variableStart.toList
  if start.isPrefixOf tag.toList && start.length < tag.toList.length then
    some (.ofList (tag.toList.drop start.length))
  else none

theorem variableOfTag?_variableTag (s : Settings) {name : String} (h : name ≠ "") :
    s.variableOfTag? (s.variableTag name) = some name := by
  have long : 0 < name.toList.length := by
    rw [List.length_pos_iff]
    exact fun e => h (String.toList_eq_nil_iff.1 e)
  simp only [variableOfTag?, variableTag, String.toList_append, List.length_append,
    List.drop_left, String.ofList_toList]
  have start : s.tags.variableStart.toList.isPrefixOf
      (s.tags.variableStart.toList ++ name.toList) = true :=
    List.isPrefixOf_iff_prefix.2 (List.prefix_append ..)
  rw [if_pos]
  simp only [start, Bool.true_and, decide_eq_true_eq]
  omega

/-- What a key of the settings holds: a text, or a part with texts of its own. -/
inductive Entry
  | text (put : String → Settings → Settings)
  | part (keys : List (String × (String → Settings → Settings)))

def entries : List (String × Entry) :=
  [("packages", .part
      [("basic", fun v s => { s with packages.basic := v }),
        ("pythoncalc", fun v s => { s with packages.pythoncalc := v })]),
    ("tags", .part
      [("variables_root", fun v s => { s with tags.variablesRoot := v }),
        ("variable_prefix", fun v s => { s with tags.variableStart := v })]),
    ("ports", .part
      [("output_name", fun v s => { s with ports.output := v }),
        ("internal_pipe", fun v s => { s with ports.pipe := v }),
        ("value", fun v s => { s with ports.value := v })]),
    ("logging", .part [("filter", fun v s => { s with logFilter := v })]),
    ("default_variable_name", .text fun v s => { s with defaultVariableName := v })]

/-- Fill settings from a table, or in the order of the fields from an array, whose further items are
passed over. A date is taken for a table with none of the fields. -/
def fill (fields : List (String × (Toml → Settings → Option Settings))) (start : Settings) :
    Toml → Option Settings
  | .table _ entries =>
    entries.foldlM (fun s (key, value) =>
      match fields.find? fun f => f.1 == key with
      | some field => field.2 value s
      | none => some s) start
  | .array items => (fields.zip items).foldlM (fun s (field, value) => field.2 value s) start
  | .tables items =>
    (fields.zip items).foldlM (fun s (field, es) => field.2 (.table .header es) s) start
  | .datetime _ => some start
  | _ => none

def fillText (put : String → Settings → Settings) : Toml → Settings → Option Settings
  | .string text, s => some (put text s)
  | _, _ => none

def fillEntry : Entry → Toml → Settings → Option Settings
  | .text put, v, s => fillText put v s
  | .part keys, v, s => fill (keys.map fun (name, put) => (name, fillText put)) s v

def ofText? (text : String) : Option Settings := do
  fill (entries.map fun (name, entry) => (name, fillEntry entry)) {}
    (.table .header (← Toml.ofText? text))

def keyField (key : String × (String → Settings → Settings)) : Json.Field Settings :=
  .of key.1 Json.asString key.2

def entryField : String × Entry → Json.Field Settings
  | (name, .text put) => keyField (name, put)
  | (name, .part keys) => ⟨name, fun v s => Json.record (keys.map keyField) s v⟩

/-- Settings given as JSON: a record whose parts are records. -/
def ofJson (v : Json) : Json.Decoded Settings := Json.record (entries.map entryField) {} v

/-- The text of a settings file. -/
def text (s : Settings) : String :=
  Toml.entryLine "default_variable_name" s.defaultVariableName ++
    Toml.tableText "packages"
      [("basic", s.packages.basic), ("pythoncalc", s.packages.pythoncalc)] ++
    Toml.tableText "tags"
      [("variables_root", s.tags.variablesRoot), ("variable_prefix", s.tags.variableStart)] ++
    Toml.tableText "ports"
      [("output_name", s.ports.output), ("internal_pipe", s.ports.pipe),
        ("value", s.ports.value)] ++
    Toml.tableText "logging" [("filter", s.logFilter)]

def load (files : Files) (path : String) : Except Error Settings :=
  match files.read path with
  | .error fault => .error (.settings (.unreadable path fault))
  | .ok text =>
    match ofText? text with
    | some s => .ok s
    | none => .error (.settings (.malformed path))

/-- Write the settings, into a directory that is made if it is not there. -/
def save (s : Settings) (files : Files) (path : String) : Except Error Files := do
  let above := (Path.parent? path).getD ""
  let files ←
    if above.isEmpty || files.doesExist above then pure files
    else (files.createDirectories above).mapError fun f => .settings (.directory f)
  (files.write path s.text).mapError fun f => .settings (.unwritable f)

/-- Where the settings file is by default, below the directory of all settings. -/
def standardPath : String := "dev.dat.dat-rs/dat.toml"

/-- The settings of a file; defaults if there is none or it cannot be used. -/
def loadOrDefault (files : Files) (path : String) : Settings :=
  if files.doesExist path then (load files path).toOption.getD {} else {}

end Settings

end Dataflow
