import Dataflow.Variable

/-! Code of packages that builds variables. It holds variables under numbers, makes one call on them
after the other, and goes on from each answer as it likes, until it gives up or gives one of the
variables away. -/

namespace Dataflow

/-- A call on variables, each of which is meant by its number. -/
inductive Callback.Call
  | new (type : TypeName)
  | constant (value : Constant) (type : TypeName)
  | copy (source : Variable)
  | restore (version : VersionId)
  | clone (x : Nat)
  | inspect (x : Nat)
  | resolve (type : TypeName)
  | addModule (x : Nat) (type : TypeName)
  | setFunction (x : Nat) (m : ModuleId) (port : String) (values : List String)
  | connect (x : Nat) (source destination : PortRef)
  | selectOutput (x : Nat) (m : ModuleId) (port : String)
  | absorb (x y : Nat)
  | setProvenance (x : Nat) (record : Provenance)

/-- What a call answers. A variable that is new has the number that is told. -/
inductive Callback.Answer
  | done
  | variable (x : Nat)
  | contents (x : Variable)
  | type (t : TypeName)
  | module (m : ModuleId)
  | output (port : PortRef)

/-- The code of a package, by what it does next. -/
inductive Callback
  | fail (e : Error)
  | nothing
  | give (x : Nat)
  | call (c : Callback.Call) (next : Except Error Callback.Answer → Callback)

namespace Callback

/-- The variables that are held, and the number of the next one. -/
structure Held where
  get? : Nat → Option Variable
  next : Nat

namespace Held

/-- The arguments of a call, numbered in their order. -/
def of (arguments : List Variable) : Held := ⟨fun n => arguments[n]?, arguments.length⟩

def find (p : Held) (n : Nat) : Except Error Variable :=
  match p.get? n with
  | some x => .ok x
  | none => .error (.unknownVariable (toString n))

def put (p : Held) (n : Nat) (x : Variable) : Held :=
  { p with get? := fun k => if k = n then some x else p.get? k }

def push (p : Held) (x : Variable) : Answer × Held :=
  (.variable p.next, { p.put p.next x with next := p.next + 1 })

def drop (p : Held) (n : Nat) : Held :=
  { p with get? := fun k => if k = n then none else p.get? k }

end Held

namespace Call

/-- Make a call. A variable that is absorbed is not held any more. -/
def perform (h : Host) (p : Held) : Call → Action (Answer × Held)
  | .new type => return p.push { type }
  | .constant value type => do return p.push (← Variable.constant h value type)
  | .copy source => do return p.push (← source.copy h)
  | .restore version => do return p.push (← Variable.restore h version)
  | .clone n => do return p.push (← Action.ofExcept (p.find n))
  | .inspect n => do return (.contents (← Action.ofExcept (p.find n)), p)
  | .resolve type => do return (.type (← Action.ofExcept (h.resolve type)), p)
  | .addModule n type => do
    let x ← Action.ofExcept (p.find n)
    let (m, x) ← x.addModule type
    return (.module m, p.put n x)
  | .setFunction n m port values => do
    let x ← Action.ofExcept (p.find n)
    let x ← Action.ofExcept (x.setFunction m port values)
    return (.done, p.put n x)
  | .connect n source destination => do
    let x ← Action.ofExcept (p.find n)
    let x ← x.connect source destination
    return (.done, p.put n x)
  | .selectOutput n m port => do
    let x ← Action.ofExcept (p.find n)
    let x ← Action.ofExcept (x.selectOutput m port)
    return (.done, p.put n x)
  | .absorb n k => do
    let y ← Action.ofExcept (p.find k)
    let x ← Action.ofExcept ((p.drop k).find n)
    let (output, x) ← Action.ofExcept (x.absorb y)
    return (.output output, (p.drop k).put n x)
  | .setProvenance n record => do
    let x ← Action.ofExcept (p.find n)
    return (.done, p.put n { x with provenance := some record })

end Call

/-- What the code gives, once it has run to its end. After a call that failed it goes on with the
variables that it held before. -/
def run (h : Host) : Callback → Held → Action (Option Variable)
  | .fail e, _ => throw e
  | .nothing, _ => return none
  | .give n, p => do return some (← Action.ofExcept (p.find n))
  | .call c next, p => ExceptT.mk do
    match ← (c.perform h p).run with
    | .ok (a, p) => (run h (next (.ok a)) p).run
    | .error e => (run h (next (.error e)) p).run

end Callback

end Dataflow
