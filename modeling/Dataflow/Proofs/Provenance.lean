import Dataflow.Proofs.Json.Reading
import Dataflow.Proofs.OrderedMap
import Dataflow.Provenance.Document

/-! Provenance records read back from their texts, if they nest no deeper than the reader goes and hold
no float that is written as null. Everything else about a record survives: its strings, its whole
numbers, arguments that have no record, and parameters. -/

namespace Dataflow

open Json (Decoded)

namespace Provenance

mutual

/-- The floating point numbers in a record. -/
def floats : Provenance → List Binary64
  | .constant (.float x) => [x]
  | .operation _ arguments => floatsOf arguments
  | _ => []

def floatsOf : List (Option Provenance) → List Binary64
  | [] => []
  | none :: rest => floatsOf rest
  | some p :: rest => floats p ++ floatsOf rest

end

/-- Whether a float is read back from the number that is written for it. -/
def ReadsBack (x : Binary64) : Prop := (Json.Number.ofFloat? x).bind Json.Number.toFloat? = some x

/-- A record whose floats have all a text of their own. -/
def Finite (p : Provenance) : Prop := ∀ x ∈ p.floats, x.isFinite = true

instance (p : Provenance) : Decidable p.Finite := List.decidableBAll ..

theorem finite_of_floats_eq_nil {p : Provenance} (none : p.floats = []) : p.Finite :=
  fun _ h => absurd (none ▸ h) List.not_mem_nil

mutual

/-- What a record is read back as. A float comes back as a float, the one that its text is read as;
everything else comes back as it was. -/
inductive Rereads : Provenance → Provenance → Prop
  | integer (i : Int64) : Rereads (.constant (.integer i)) (.constant (.integer i))
  | float {x y : Binary64} (read : (Json.Number.ofFloat? x).bind Json.Number.toFloat? = some y) :
    Rereads (.constant (.float x)) (.constant (.float y))
  | string (s : String) : Rereads (.constant (.string s)) (.constant (.string s))
  | operation (op : OperationRef) {given read : List (Option Provenance)}
      (arguments : RereadAll given read) : Rereads (.operation op given) (.operation op read)
  | loader (name : String) (parameters : OrderedMap String String) :
    Rereads (.loader name parameters) (.loader name parameters)

inductive RereadAll : List (Option Provenance) → List (Option Provenance) → Prop
  | nil : RereadAll [] []
  | absent {given read : List (Option Provenance)} (rest : RereadAll given read) :
    RereadAll (none :: given) (none :: read)
  | present {p q : Provenance} {given read : List (Option Provenance)} (first : Rereads p q)
      (rest : RereadAll given read) : RereadAll (some p :: given) (some q :: read)

end

mutual

theorem rereads_refl (p : Provenance) (exact : ∀ x ∈ p.floats, ReadsBack x) : Rereads p p := by
  cases p with
  | constant c =>
    cases c with
    | integer i => exact .integer i
    | float x => exact .float (exact x (List.mem_singleton_self x))
    | string s => exact .string s
  | operation op arguments => exact .operation op (rereadAll_refl arguments exact)
  | loader name parameters => exact .loader name parameters

theorem rereadAll_refl (arguments : List (Option Provenance))
    (exact : ∀ x ∈ floatsOf arguments, ReadsBack x) : RereadAll arguments arguments := by
  match arguments with
  | [] => exact .nil
  | none :: rest => exact .absent (rereadAll_refl rest exact)
  | some p :: rest =>
    exact .present (rereads_refl p fun x hx => exact x (List.mem_append_left _ hx))
      (rereadAll_refl rest fun x hx => exact x (List.mem_append_right _ hx))

end

theorem isFinite_of_written {x : Binary64} {n : Json.Number}
    (written : Json.Number.ofFloat? x = some n) : x.isFinite = true := by
  cases x with
  | finite s rank => rfl
  | infinite s => cases written
  | nan => cases written

mutual

theorem Rereads.finite {p q : Provenance} : Rereads p q → p.Finite
  | .integer _ | .string _ | .loader _ _ => finite_of_floats_eq_nil rfl
  | .float read => by
    obtain ⟨n, written, -⟩ := Option.bind_eq_some_iff.1 read
    intro x hx
    rw [List.mem_singleton.1 hx]
    exact isFinite_of_written written
  | .operation _ arguments => arguments.finite

theorem RereadAll.finite {given read : List (Option Provenance)} :
    RereadAll given read → ∀ x ∈ floatsOf given, x.isFinite = true
  | .nil => fun _ h => absurd h List.not_mem_nil
  | .absent rest => rest.finite
  | .present first rest => List.forall_mem_append.2 ⟨first.finite, rest.finite⟩

end

theorem spelled_float (x : Binary64) : (Json.float x).Spelled := by
  cases written : Json.Number.ofFloat? x with
  | none => simp [Json.float, written, Json.Spelled]
  | some n => simpa [Json.float, written, Json.Spelled] using (Json.spelled_ofFloat? written).1

theorem spelled_constant (c : Constant) : c.toJson.Spelled := by
  cases c with
  | integer i => exact Json.spelled_ofInt i.toInt
  | float x => exact spelled_float x
  | string s => trivial

theorem spelled_strings (texts : List String) : Json.SpelledItems (texts.map .string) := by
  induction texts with
  | nil => trivial
  | cons s texts ih => exact ⟨trivial, ih⟩

theorem spelled_parameters (entries : List (String × String)) :
    Json.SpelledMembers (entries.map fun e => (e.1, .string e.2)) := by
  induction entries with
  | nil => trivial
  | cons e entries ih => exact ⟨trivial, ih⟩

mutual

theorem spelled_toJson (p : Provenance) : p.toJson.Spelled := by
  cases p with
  | constant c => exact ⟨trivial, spelled_constant c, trivial⟩
  | operation op arguments =>
    exact ⟨trivial, ⟨trivial, trivial, spelled_strings op.signature, trivial⟩,
      spelled_toJsons arguments, trivial⟩
  | loader name parameters =>
    exact ⟨trivial, trivial, spelled_parameters parameters.entries, trivial⟩

theorem spelled_toJsons (arguments : List (Option Provenance)) :
    Json.SpelledItems (toJsons arguments) := by
  match arguments with
  | [] => trivial
  | none :: rest => exact ⟨trivial, spelled_toJsons rest⟩
  | some p :: rest => exact ⟨spelled_toJson p, spelled_toJsons rest⟩

end

theorem isReadable_float {x y : Binary64}
    (read : (Json.Number.ofFloat? x).bind Json.Number.toFloat? = some y) :
    (Json.float x).isReadable = true := by
  obtain ⟨n, written, value⟩ := Option.bind_eq_some_iff.1 read
  simp [Json.float, written, Json.isReadable, value]

theorem isReadable_integer (i : Int64) : (Json.int i.toInt).isReadable = true := by
  have lower := i.le_toInt
  have upper := i.toInt_lt
  refine Json.isSome_toFloat?_ofInt ?_
  simp only [UInt64.size]
  omega

theorem isReadable_strings (texts : List String) :
    Json.areReadableItems (texts.map .string) = true := by
  induction texts with
  | nil => rfl
  | cons s texts ih => simp [Json.areReadableItems, Json.isReadable, ih]

theorem isReadable_parameters (entries : List (String × String)) :
    Json.areReadableMembers (entries.map fun e => (e.1, .string e.2)) = true := by
  induction entries with
  | nil => rfl
  | cons e entries ih => simp [Json.areReadableMembers, Json.isReadable, ih]

mutual

theorem Rereads.isReadable {p q : Provenance} : Rereads p q → p.toJson.isReadable = true
  | .integer i => by
    simp [toJson, Constant.toJson, Json.isReadable, Json.areReadableMembers, isReadable_integer]
  | .float read => by
    simp [toJson, Constant.toJson, Json.isReadable, Json.areReadableMembers, isReadable_float read]
  | .string _ => rfl
  | .operation op arguments => by
    simp [toJson, OperationRef.toJson, Json.ofStrings, Json.isReadable, Json.areReadableMembers,
      isReadable_strings, arguments.areReadable]
  | .loader name parameters => by
    simp [toJson, Json.isReadable, Json.areReadableMembers, isReadable_parameters]

theorem RereadAll.areReadable {given read : List (Option Provenance)} :
    RereadAll given read → Json.areReadableItems (toJsons given) = true
  | .nil => rfl
  | .absent rest => by
    simp [toJsons, Json.areReadableItems, Json.isReadable, rest.areReadable]
  | .present first rest => by
    simp [toJsons, Json.areReadableItems, first.isReadable, rest.areReadable]

end

/-- A constant has no tag: a number without point and exponent is an integer, any other a float, and a
string is a string whatever it holds. -/
theorem ofJson_constant {c d : Constant} :
    Constant.ofJson c.toJson = .ok d ↔ Rereads (constant c) (constant d) := by
  constructor
  · intro read
    cases c with
    | integer i =>
      have fits : Constant.ofInt? i.toInt = some (.integer i) := by
        rw [Constant.ofInt?, if_pos ⟨i.minValue_le_toInt, i.toInt_le⟩, Int64.ofInt_toInt]
      simp only [Constant.toJson, Json.int, Constant.ofJson, Json.Number.integer?_ofInt,
        Option.bind_some, fits, Except.ok.injEq] at read
      subst read
      exact .integer i
    | string s =>
      cases read
      exact .string s
    | float x =>
      cases written : Json.Number.ofFloat? x with
      | none => simp [Constant.toJson, Json.float, written, Constant.ofJson] at read
      | some n =>
        have whole := (Json.spelled_ofFloat? written).2
        simp only [Constant.toJson, Json.float, written, Constant.ofJson, whole, Option.map_some,
          Option.getD_some, Option.bind_none] at read
        split at read
        · next y value =>
          cases read
          exact .float (by rw [written, Option.bind_some, value])
        · cases read
  · intro rereads
    cases rereads with
    | integer i =>
      have fits : Constant.ofInt? i.toInt = some (.integer i) := by
        rw [Constant.ofInt?, if_pos ⟨i.minValue_le_toInt, i.toInt_le⟩, Int64.ofInt_toInt]
      simp [Constant.toJson, Json.int, Constant.ofJson, Json.Number.integer?_ofInt, fits]
    | string s => rfl
    | float read =>
      obtain ⟨n, written, value⟩ := Option.bind_eq_some_iff.1 read
      have whole := (Json.spelled_ofFloat? written).2
      simp [Constant.toJson, Json.float, written, Constant.ofJson, whole, value]

/-- A member of a record is taken by its field, if that has taken none before. -/
theorem takeMembers_cons {σ : Type} {fields : List (Json.Field σ)} {seen : List String}
    {name : String} {v : Json} {field : Json.Field σ} {s : σ} (whole : v ≠ .fault)
    (found : fields.find? (fun f => f.name == name) = some field)
    (new : seen.contains name = false) (rest : List (String × Json)) {r : Decoded σ}
    (taken : field.take v s = r) :
    Json.takeMembers fields seen ((name, v) :: rest) s =
      r.bind (Json.takeMembers fields (name :: seen) rest) := by
  rw [Json.takeMembers]
  · simp only [found, new, Bool.false_eq_true, if_false, taken]
    rfl
  · exact whole

theorem takeMembers_cons_of_ok {σ : Type} {fields : List (Json.Field σ)} {seen : List String}
    {name : String} {v : Json} {field : Json.Field σ} {s s' : σ} (whole : v ≠ .fault)
    (found : fields.find? (fun f => f.name == name) = some field)
    (new : seen.contains name = false) (rest : List (String × Json))
    (taken : field.take v s = .ok s') :
    Json.takeMembers fields seen ((name, v) :: rest) s =
      Json.takeMembers fields (name :: seen) rest s' :=
  takeMembers_cons whole found new rest taken

theorem mapM_asString (texts : List String) :
    (texts.map Json.string).mapM Json.asString = .ok texts := by
  induction texts with
  | nil => rfl
  | cons s texts ih =>
    rw [List.map_cons, List.mapM_cons, ih]
    rfl

theorem ofJson_operationRef (r : OperationRef) : OperationRef.ofJson r.toJson = .ok r := by
  have signature : (Json.asList Json.asString (Json.ofStrings r.signature)).map
      (fun a => (some r.name, some r.package, some a)) =
        .ok (some r.name, some r.package, some r.signature) :=
    congrArg (Except.map _) (mapM_asString r.signature)
  rw [OperationRef.ofJson, OperationRef.toJson, Json.record,
    takeMembers_cons_of_ok (v := .string r.name) nofun rfl rfl _ rfl,
    takeMembers_cons_of_ok (v := .string r.package) nofun rfl rfl _ rfl,
    takeMembers_cons_of_ok (v := Json.ofStrings r.signature) nofun rfl rfl _ signature]
  rfl

theorem constantOfJson_object (c : Constant) :
    constantOfJson (.object [("value", c.toJson)]) = (Constant.ofJson c.toJson).map .constant := by
  have whole : c.toJson ≠ .fault := by
    cases c with
    | float x =>
      simp only [Constant.toJson, Json.float]
      cases Json.Number.ofFloat? x <;> nofun
    | _ => nofun
  rw [constantOfJson, Json.record, takeMembers_cons whole rfl rfl _ rfl]
  show ((Constant.ofJson c.toJson).map some).bind _ >>= _ = _
  cases Constant.ofJson c.toJson <;> rfl

theorem parametersOfJson_object (parameters : OrderedMap String String) :
    parametersOfJson (.object (parameters.entries.map fun e => (e.1, .string e.2))) =
      .ok parameters := by
  have entries : ∀ es : List (String × String),
      (es.map fun e => (e.1, Json.string e.2)).mapM
        (fun m => (Json.asString m.2).map (m.1, ·)) = (.ok es : Decoded _) := by
    intro es
    induction es with
    | nil => rfl
    | cons e es ih =>
      rw [List.map_cons, List.mapM_cons, ih]
      rfl
  rw [parametersOfJson, entries]
  exact congrArg Except.ok parameters.empty_union

theorem loaderOfJson_object (name : String) (parameters : OrderedMap String String) :
    loaderOfJson (.object [("loader", .string name),
      ("parameters", .object (parameters.entries.map fun e => (e.1, .string e.2)))]) =
        .ok (.loader name parameters) := by
  have taken := congrArg (Except.map fun a => (some name, some a))
    (parametersOfJson_object parameters)
  rw [loaderOfJson, Json.record, takeMembers_cons_of_ok (v := .string name) nofun rfl rfl _ rfl,
    takeMembers_cons_of_ok (v := .object _) nofun rfl rfl _ taken]
  rfl

theorem operationOfJson_object (argument : Json → Decoded Provenance) (op : OperationRef)
    (items : List Json) :
    operationOfJson argument (.object [("operation", op.toJson), ("arguments", .array items)]) =
      (items.mapM (Json.asOption argument)).map (.operation op) := by
  have taken := congrArg (Except.map fun a => (some a, (none : Option (List (Option Provenance)))))
    (ofJson_operationRef op)
  rw [operationOfJson, Json.record,
    takeMembers_cons_of_ok (v := op.toJson) nofun rfl rfl _ taken,
    takeMembers_cons (v := .array items) nofun rfl rfl _ rfl]
  show (((items.mapM (Json.asOption argument)).map fun a => (some op, some a)).bind _) >>= _ = _
  cases items.mapM (Json.asOption argument) <;> rfl

theorem map_eq_ok {α β : Type} {r : Decoded α} {f : α → β} {b : β} :
    r.map f = .ok b ↔ ∃ a, r = .ok a ∧ f a = b := by
  cases r <;> simp [Except.map]

theorem mapM_cons_eq_ok {α : Type} {decode : Json → Decoded α} {v : Json} {vs : List Json}
    {read : List α} :
    (v :: vs).mapM decode = .ok read ↔
      ∃ a others, decode v = .ok a ∧ vs.mapM decode = .ok others ∧ read = a :: others := by
  rw [List.mapM_cons]
  cases decode v with
  | error e => simp [bind, Except.bind]
  | ok a =>
    cases vs.mapM decode with
    | error e => simp [bind, Except.bind]
    | ok others => simp [bind, Except.bind, pure, Except.pure, eq_comm]

mutual

/-- A record is read from its value as what it is read back as. -/
theorem ofJsonWithin_toJson (p q : Provenance) {fuel : Nat} (enough : p.toJson.depth < fuel)
    (isNested : Bool) : ofJsonWithin fuel isNested p.toJson = .ok q ↔ Rereads p q := by
  obtain ⟨fuel, rfl⟩ : ∃ n, fuel = n + 1 := ⟨fuel - 1, by omega⟩
  cases p with
  | constant c =>
    show constantOfJson (.object [("value", c.toJson)]) = _ ↔ _
    rw [constantOfJson_object, map_eq_ok]
    constructor
    · rintro ⟨d, read, rfl⟩
      exact ofJson_constant.1 read
    · intro rereads
      obtain ⟨d, rfl⟩ : ∃ d, q = .constant d := by cases rereads <;> exact ⟨_, rfl⟩
      exact ⟨d, ofJson_constant.2 rereads, rfl⟩
  | operation op given =>
    show operationOfJson (ofJsonWithin fuel true)
      (.object [("operation", op.toJson), ("arguments", .array (toJsons given))]) = _ ↔ _
    have deep : Json.depthOfItems (toJsons given) < fuel := by
      simp only [toJson, Json.depth, Json.depthOfMembers] at enough
      omega
    rw [operationOfJson_object, map_eq_ok]
    constructor
    · rintro ⟨read, arguments, rfl⟩
      exact .operation op ((mapM_toJsons given read deep).1 arguments)
    · rintro (_ | _ | _ | ⟨_, arguments⟩ | _)
      exact ⟨_, (mapM_toJsons given _ deep).2 arguments, rfl⟩
  | loader name parameters =>
    show loaderOfJson (.object [("loader", .string name),
      ("parameters", .object (parameters.entries.map fun e => (e.1, .string e.2)))]) = _ ↔ _
    rw [loaderOfJson_object, Except.ok.injEq]
    constructor
    · rintro rfl
      exact .loader name parameters
    · rintro (_ | _ | _ | _ | _)
      rfl

theorem mapM_toJsons (given read : List (Option Provenance)) {fuel : Nat}
    (enough : Json.depthOfItems (toJsons given) < fuel) :
    (toJsons given).mapM (Json.asOption (ofJsonWithin fuel true)) = .ok read ↔
      RereadAll given read := by
  match given with
  | [] =>
    rw [toJsons, List.mapM_nil]
    constructor
    · rintro ⟨⟩
      exact .nil
    · rintro ⟨⟩
      rfl
  | none :: rest =>
    simp only [toJsons, Json.depthOfItems] at enough
    rw [toJsons, mapM_cons_eq_ok]
    constructor
    · rintro ⟨_, others, ⟨⟩, more, rfl⟩
      exact .absent ((mapM_toJsons rest others (by omega)).1 more)
    · rintro (_ | more | _)
      exact ⟨none, _, rfl, (mapM_toJsons rest _ (by omega)).2 more, rfl⟩
  | some p :: rest =>
    simp only [toJsons, Json.depthOfItems] at enough
    have present : Json.asOption (ofJsonWithin fuel true) p.toJson =
        (ofJsonWithin fuel true p.toJson).map some := by
      cases p <;> rfl
    rw [toJsons, mapM_cons_eq_ok, present]
    simp only [map_eq_ok]
    constructor
    · rintro ⟨_, others, ⟨q, first, rfl⟩, more, rfl⟩
      exact .present ((ofJsonWithin_toJson p q (by omega) true).1 first)
        ((mapM_toJsons rest others (by omega)).1 more)
    · rintro (_ | _ | ⟨first, more⟩)
      exact ⟨_, _, ⟨_, (ofJsonWithin_toJson p _ (by omega) true).2 first, rfl⟩,
        (mapM_toJsons rest _ (by omega)).2 more, rfl⟩

end

theorem ofText?_document_iff (p q : Provenance) :
    ofText? p.document = some q ↔ p.toJson.depth ≤ levels ∧ Rereads p q := by
  have decoded : (ofJson p.toJson).toOption = some q ↔ Rereads p q := by
    rw [ofJson, ← ofJsonWithin_toJson p q (Nat.lt_succ_self _) false]
    cases ofJsonWithin (p.toJson.depth + 1) false p.toJson <;> simp [Except.toOption]
  rw [ofText?, document, Json.ofText?_compact p.spelled_toJson]
  constructor
  · intro read
    simp only [Option.ite_none_right_eq_some, Bool.and_eq_true, decide_eq_true_eq] at read
    exact ⟨read.1.2, decoded.1 read.2⟩
  · rintro ⟨shallow, rereads⟩
    simp only [rereads.isReadable, shallow, Bool.true_and, decide_true, if_true]
    exact decoded.2 rereads

/-- What is read back of a record: all of it, unless it nests too deep or has a float without a text. -/
theorem ofText?_document {p : Provenance}
    (exact : ∀ x ∈ p.floats, x.isFinite = true → ReadsBack x) : ofText? p.document =
      if p.toJson.depth ≤ levels ∧ p.Finite then some p else none := by
  split
  · next whole =>
    have refl := rereads_refl p fun x hx => exact x hx (whole.2 x hx)
    exact (ofText?_document_iff p p).2 ⟨whole.1, refl⟩
  · next lost =>
    refine Option.eq_none_iff_forall_ne_some.2 fun q read => lost ?_
    obtain ⟨shallow, rereads⟩ := (ofText?_document_iff p q).1 read
    exact ⟨shallow, rereads.finite⟩

/-- A record with finite floats that nests at most 127 deep reads back from its text, where its floats
do; and whatever is read back of any record differs from it at most in its floats. -/
theorem document_readsBack (p : Provenance) :
    (p.toJson.depth ≤ 127 → p.Finite → (∀ x ∈ p.floats, x.isFinite = true → ReadsBack x) →
      ofText? p.document = some p) ∧
    ∀ q, ofText? p.document = some q ↔ p.toJson.depth ≤ 127 ∧ Rereads p q := by
  constructor
  · intro shallow finite exact
    rw [ofText?_document exact, if_pos ⟨shallow, finite⟩]
  · exact ofText?_document_iff p

/-- One, as an integer, a float and a string, beside an argument without a record and a loader. -/
def ones : Provenance :=
  .operation ⟨"f", "p", ["b:Float", "b:String"]⟩
    [some (.constant (.integer 1)), none, some (.constant (.float (.ofInt 1))),
      some (.operation ⟨"g", "p", []⟩
        [some (.constant (.string "1")), some (.loader "l\u00e9" (.ofList [("\"\n", "\u0001")]))])]

theorem document_readsBack_ones :
    ones.toJson.depth ≤ 127 ∧ ones.Finite ∧ (∀ x ∈ ones.floats, ReadsBack x) ∧
      ofText? ones.document = some ones := by
  have shallow : ones.toJson.depth ≤ 127 := by decide +kernel
  have finite : ones.Finite := by decide +kernel
  have exact : ∀ x ∈ ones.floats, ReadsBack x := by
    unfold ReadsBack
    decide +kernel
  exact ⟨shallow, finite, exact,
    (document_readsBack ones).1 shallow finite fun x hx _ => exact x hx⟩

end Provenance

end Dataflow
