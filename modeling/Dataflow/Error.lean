import Dataflow.Expr.Token
import Dataflow.Files.Basic
import Dataflow.Id
import Dataflow.TypeName

/-! Everything that can go wrong, by cause. A cause holds what its message shows; the wording is in
`message` alone. Each group of causes also has a text that is reported as it stands, for faults that
arise outside the library. -/

namespace Dataflow

/-- Refusals of the version store and of what is built on it. -/
inductive HostFault
  | noSuchVersion (version : VersionId)
  | prunedVersion (version : VersionId)
  | pruneOfRoot
  | duplicateModule (id : ModuleId)
  | functionOnMissing (id : ModuleId)
  | duplicateConnection (id : ConnectionId)
  | danglingConnection (id : ConnectionId) (module : ModuleId)
  | strayConnection (id : ConnectionId) (module : ModuleId)
  | outputNotCopied (module : ModuleId)
  | sourceNotCopied (module : ModuleId)
  | missingOutput (module : ModuleId)
  | severalFeeds (module : ModuleId)
  | absorbedMaterialized
  | alreadyMaterialized (name : String)
  | malformedRoot (tag : String) (modules : Nat)
  | executionGone
  | other (text : String)
deriving DecidableEq

def HostFault.message : HostFault → String
  | .noSuchVersion v => "no such version " ++ v.text
  | .prunedVersion v => "version " ++ v.text ++ " was pruned"
  | .pruneOfRoot => "cannot prune the root version"
  | .duplicateModule m => "module " ++ m.text ++ " already exists in pipeline"
  | .functionOnMissing m => "cannot set function on missing module " ++ m.text
  | .duplicateConnection c => "connection " ++ c.text ++ " already exists in pipeline"
  | .danglingConnection c m => "connection " ++ c.text ++ " references missing module " ++ m.text
  | .strayConnection c m =>
    "connection " ++ c.text ++ " references module " ++ m.text ++ " which was not copied"
  | .outputNotCopied m => "output module " ++ m.text ++ " was not copied"
  | .sourceNotCopied m => "variable output module " ++ m.text ++ " was not copied"
  | .missingOutput m => "missing output module " ++ m.text
  | .severalFeeds m => "variables root module " ++ m.text ++ " has more than one input"
  | .absorbedMaterialized =>
    "cannot absorb a materialized variable; copy it with Variable::from_workflow"
  | .alreadyMaterialized name => "variable " ++ Text.quoted name ++ " is already materialized"
  | .malformedRoot tag modules =>
    "version tagged " ++ Text.quoted tag ++ " must contain exactly one module, found " ++
      toString modules
  | .executionGone => "execution engine is gone"
  | .other text => text

/-- Why a recipe does not fit its plot. -/
inductive RecipeFault
  | unknownPort (plot port : String)
  | unboundPort (plot port : String)
  | missingModule (id : ModuleId)
  | namelessInput (id : ModuleId)
  | chainedInput (name : String)
  | other (text : String)
deriving DecidableEq

def RecipeFault.message : RecipeFault → String
  | .unknownPort plot port => "plot " ++ Text.quoted plot ++ " has no port " ++ Text.quoted port
  | .unboundPort plot port => "plot " ++ Text.quoted plot ++ " requires port " ++ Text.quoted port
  | .missingModule m => "plot references missing module " ++ m.text
  | .namelessInput m => "plot InputPort " ++ m.text ++ " has no name"
  | .chainedInput name => "plot InputPort " ++ Text.quoted name ++ " feeds another InputPort"
  | .other text => text

/-- Refusals of the registries of types and of operations. -/
inductive RegistryFault
  | duplicateType (type : TypeName)
  | alreadyInitialized
  | notInitialized
  | notSealed
  | installAfterSeal (package : String)
  | registerAfterSeal (operation : String)
  | other (text : String)
deriving DecidableEq

def RegistryFault.message : RegistryFault → String
  | .duplicateType t => "module type " ++ t.text ++ " is already registered"
  | .alreadyInitialized => "operation registry is already initialized"
  | .notInitialized => "operation registry is not initialized"
  | .notSealed => "operation registry is not sealed"
  | .installAfterSeal package =>
    "cannot install " ++ package ++ " after the operation registry was sealed"
  | .registerAfterSeal operation =>
    "cannot register " ++ operation ++ " after the operation registry was sealed"
  | .other text => text

/-- Why settings could not be read or written. -/
inductive SettingsFault
  | unreadable (path : String) (fault : FileFault)
  | malformed (path : String)
  | directory (fault : FileFault)
  | unwritable (fault : FileFault)
  | other (text : String)
deriving DecidableEq

def SettingsFault.message : SettingsFault → String
  | .unreadable path fault =>
    "Failed to read config file " ++ Text.quoted path ++ ": " ++ fault.message
  | .malformed path => "Failed to parse config file " ++ Text.quoted path
  | .directory fault => "Failed to create config directory: " ++ fault.message
  | .unwritable fault => "Failed to write config: " ++ fault.message
  | .other text => text

/-- What is wrong with an implementation supplied by a package, or with its template. -/
inductive ImplementationFault
  | noResult
  | wrongCount (given : Nat)
  | notCopied (module : ModuleId)
  | missingModule (module : ModuleId)
  | namelessInput
  | unknownInput (name : String)
  | severalOutputs
  | noOutput
  | other (text : String)
deriving DecidableEq

def ImplementationFault.message : ImplementationFault → String
  | .noResult => "operation callback returned no variable"
  | .wrongCount given => "expected 2 arguments, got " ++ toString given
  | .notCopied m => "template module " ++ m.text ++ " was not copied"
  | .missingModule m => "template references missing module " ++ m.text
  | .namelessInput => "template InputPort has no name"
  | .unknownInput name => "template input " ++ Text.quoted name ++ " is not a parameter"
  | .severalOutputs => "template has more than one OutputPort connection"
  | .noOutput => "template has no connected OutputPort"
  | .other text => text

inductive UsageFault
  | remove
  | rename
  | plot
  | binding (word : String)
  | other (text : String)
deriving DecidableEq

def UsageFault.message : UsageFault → String
  | .remove => "del <variable>"
  | .rename => "rename <old> <new>"
  | .plot => "plot <descriptor.json> port=variable ..."
  | .binding word => "expected port=variable, got " ++ Text.quoted word
  | .other text => text

/-- What a document was meant to hold, and where it was. -/
inductive DocumentSource
  | plot (path : String)
  | pipeline (path : String)
  | value
deriving DecidableEq

/-- Why a document does not hold what it should. -/
inductive DocumentFault
  | malformed
  | unknownType (text : String)
  | host (fault : HostFault)
deriving DecidableEq

inductive SerializationFault
  | document (source : DocumentSource) (fault : DocumentFault)
  | other (text : String)
deriving DecidableEq

/-- The words that lead from a reason to its place in the document. -/
def placeWords : List Char := " at line ".toList

/-- A reason without its place. The place begins where its words first occur, so a reason that has
them in itself is cut there. -/
def withoutPlace (reason : String) : String :=
  .ofList (Text.before placeWords (reason.toList ++ placeWords))

def DocumentFault.message? : DocumentFault → Option String
  | .malformed => none
  | .unknownType text => some (withoutPlace ("Unknown module type " ++ text))
  | .host fault => some ("Host error: " ++ fault.message)

example : withoutPlace "no type x at line" = "no type x" := by decide +kernel

def SerializationFault.message : SerializationFault → String
  | .document source fault =>
    let reason := fault.message?
    match source with
    | .plot path => "Failed to parse plot " ++ Text.quoted path ++ (reason.map (": " ++ ·)).getD ""
    | .pipeline path =>
      "Failed to parse pipeline " ++ Text.quoted path ++ (reason.map (": " ++ ·)).getD ""
    | .value => reason.getD "invalid"
  | .other text => text

inductive Error
  | parse (fault : ParseError)
  | duplicateVariable (name : String)
  | unknownVariable (name : String)
  | invalidVariableName (name : String)
  | noSuchOperation (name : String)
  | arityMismatch (name : String) (arity : Nat)
  | noMatchingOperation (name : String) (arity : Nat)
  | implementation (operation : String) (fault : ImplementationFault)
  | divisionByZero
  | unknownType (text : String)
  | outputNotDesignated
  | outputAlreadyDesignated
  | foreignModule (id : ModuleId)
  | notMaterialized (subject : String)
  | recipe (fault : RecipeFault)
  | scriptUsage (fault : UsageFault)
  | host (fault : HostFault)
  | registry (fault : RegistryFault)
  | settings (fault : SettingsFault)
  | file (fault : FileFault)
  | serialization (fault : SerializationFault)
  | abandoned
  | within (context : String) (cause : Error)
deriving DecidableEq

namespace Error

def message : Error → String
  | .parse fault => "Parse error: " ++ fault.message
  | .duplicateVariable name => "Target variable " ++ Text.quoted name ++ " already exists"
  | .unknownVariable name => "Unknown variable " ++ Text.quoted name
  | .invalidVariableName name => "Invalid variable name " ++ Text.quoted name
  | .noSuchOperation name => "There is no operation " ++ Text.quoted name
  | .arityMismatch name arity =>
    "There is no operation " ++ Text.quoted name ++ " with " ++ toString arity ++ " arguments"
  | .noMatchingOperation name arity =>
    "Found no match for operation " ++ Text.quoted name ++ " with given " ++ toString arity ++ " args"
  | .implementation operation fault =>
    "Package error in operation " ++ Text.quoted operation ++ ": " ++ fault.message
  | .divisionByZero => "Division by zero"
  | .unknownType text => "Unknown module type " ++ text
  | .outputNotDesignated => "No output port was selected for this variable"
  | .outputAlreadyDesignated => "select_output_port() was called more than once"
  | .foreignModule id => "Module " ++ id.text ++ " does not belong to this variable"
  | .notMaterialized subject => "Variable " ++ Text.quoted subject ++ " is not materialized"
  | .recipe fault => "Recipe error: " ++ fault.message
  | .scriptUsage fault => "Script usage: " ++ fault.message
  | .host fault => "Host error: " ++ fault.message
  | .registry fault => "Registry error: " ++ fault.message
  | .settings fault => "Configuration error: " ++ fault.message
  | .file fault => "IO error: " ++ fault.message
  | .serialization fault => "Serialization error: " ++ fault.message
  | .abandoned => "Workspace lock poisoned"
  | .within context cause => context ++ ": " ++ cause.message

/-- The innermost cause. -/
def rootCause : Error → Error
  | .within _ cause => cause.rootCause
  | e => e

/-- The error with contexts around it, the last one outermost. -/
def withContexts (e : Error) (contexts : List String) : Error :=
  contexts.foldl (fun e context => .within context e) e

theorem rootCause_withContexts (e : Error) (contexts : List String) :
    (e.withContexts contexts).rootCause = e.rootCause := by
  induction contexts generalizing e with
  | nil => rfl
  | cons c cs ih => exact ih (.within c e)

end Error

/-- A type named by a text, which has to be one of a package. -/
def TypeName.parse (text : String) : Except Error TypeName :=
  match TypeName.ofText? text with
  | some t => .ok t
  | none => .error (.unknownType text)

end Dataflow
