import Dataflow.Proofs.Workspace.Frame
import Dataflow.Script.Run
import Mathlib.Data.List.DropRight
import Mathlib.Data.List.TakeWhile

/-! Runs of scripts. Lines are run one after the other, each in the workspace that the one before it
left, whether that failed or not. So two scripts one after the other run as one text, but for the
numbers of the later lines, and every line has its part of the report. -/

namespace Dataflow

namespace Text

theorem linesFrom_append (line cs ds : List Char) :
    linesFrom line (cs ++ '\n' :: ds) = linesFrom line (cs ++ ['\n']) ++ linesFrom [] ds := by
  induction cs generalizing line with
  | nil => rfl
  | cons c cs ih =>
    simp only [List.cons_append, linesFrom, ih]
    split <;> simp

theorem lines_append (first later : String) :
    lines (first ++ "\n" ++ later) = lines (first ++ "\n") ++ lines later := by
  have cut : (first ++ "\n" ++ later).toList = first.toList ++ '\n' :: later.toList := by simp
  have ended : (first ++ "\n").toList = first.toList ++ ['\n'] := by simp
  rw [lines, cut, linesFrom_append, List.map_append, lines, lines, ended]

theorem head?_trim (cs : List Char) : (trim cs).head? = (cs.dropWhile isBlank).head? := by
  obtain ⟨back, cut⟩ : trim cs <+: cs.dropWhile isBlank := List.rdropWhile_prefix isBlank _
  cases kept : trim cs with
  | nil =>
    have blank := List.rdropWhile_eq_nil_iff.1 kept
    cases left : cs.dropWhile isBlank with
    | nil => rfl
    | cons c more =>
      have solid := List.head?_dropWhile_not isBlank cs
      rw [left] at blank solid
      exact absurd (blank c (List.mem_cons_self ..)) (by simpa using solid)
  | cons c more =>
    rw [← cut, kept]
    rfl

end Text

namespace Report

/-- The report of lines that stand `k` lines further down. -/
def shift (k : Nat) (r : Report) : Report where
  named := r.named
  pipelines := r.pipelines.map fun p => { p with line := p.line + k }
  warnings := r.warnings.map fun m => { m with line := m.line + k }
  errors := r.errors.map fun m => { m with line := m.line + k }

theorem append_assoc (r s t : Report) : (r.append s).append t = r.append (s.append t) := by
  simp [append]

@[simp] theorem ofVariables_append (named : OrderedMap String Dataflow.Variable) (r : Report) :
    (ofVariables named).append r = r := rfl

@[simp] theorem shift_ofVariables (k : Nat) (named : OrderedMap String Dataflow.Variable) :
    (ofVariables named).shift k = ofVariables named := rfl

theorem shift_append (k : Nat) (r later : Report) :
    (r.append later).shift k = (r.shift k).append (later.shift k) := by
  simp [append, shift]

end Report

open Workspace

theorem Surroundings.keeps_plot (env : Surroundings) (descriptor : String) :
    Keeps (env.plot descriptor) := by
  unfold plot
  refine Keeps.bind (fun w => rfl) fun w => ?_
  split
  · exact fun w => rfl
  · exact keeps_ofExcept _

namespace Statement

variable {env : Surroundings} {w w' u : Workspace} {r r' : Report} {n : Nat} {line : String}
  {lines : List String}

/-- What a statement does depends on its line's number only as far as it reports it. -/
theorem run_shift (env : Surroundings) (n k : Nat) (s : Statement) :
    s.run env (n + k) = Report.shift k <$> s.run env n := by
  cases s <;> simp [run, Report.shift, Function.comp_def]

theorem runLine_shift (env : Surroundings) (n k : Nat) (line : String) (w : Workspace) :
    runLine env (n + k) line w =
      ((runLine env n line w).1.shift k, (runLine env n line w).2) := by
  unfold runLine
  rcases ofLine? line with _ | e | s
  · rfl
  · rfl
  · simp only [run_shift, on_map]
    rcases on (s.run env n) w with ⟨e | r, w'⟩ <;> rfl

theorem runLines_shift (env : Surroundings) (n k : Nat) (lines : List String) (w : Workspace) :
    runLines env (n + k) lines w =
      ((runLines env n lines w).1.shift k, (runLines env n lines w).2) := by
  induction lines generalizing n w with
  | nil => rfl
  | cons line lines ih =>
    simp only [runLines, runLine_shift, Nat.add_right_comm n k 1, ih, Report.shift_append]

/-- Later lines are run in the workspace that the earlier ones left. -/
theorem runLines_append (env : Surroundings) (n : Nat) (first later : List String)
    (w : Workspace) :
    runLines env n (first ++ later) w =
      let (r, w') := runLines env n first w
      let (s, w'') := runLines env (n + first.length) later w'
      (r.append s, w'') := by
  induction first generalizing n w with
  | nil => simp [runLines]
  | cons line first ih =>
    simp only [List.cons_append, runLines, ih, Report.append_assoc, List.length_cons,
      Nat.add_assoc, Nat.add_comm 1]

/-- A script that ends its last line and another after it run as one script of both. -/
theorem runScript_append (env : Surroundings) (first later : String) (w : Workspace) :
    runScript env (first ++ "\n" ++ later) w =
      let (r, w') := runScript env (first ++ "\n") w
      let (s, w'') := runScript env later w'
      (r.append (s.shift (Text.lines (first ++ "\n")).length), w'') := by
  simp only [runScript, Text.lines_append, runLines_append, runLines_shift]

/-- A line that is blank or a comment: its first character that is not blank, if there is one, is the
mark of comments. -/
def Silent (line : String) : Prop := ∀ c ∈ (line.toList.dropWhile Text.isBlank).head?, c = '#'

theorem ofLine?_eq_none {line : String} : ofLine? line = none ↔ Silent line := by
  rw [Silent, ← Text.head?_trim]
  unfold ofLine?
  cases Text.trim line.toList with
  | nil => simp
  | cons c more =>
    by_cases comment : c = '#'
    · simp [comment]
    · have statement : ((c :: more).isEmpty || (c :: more).head? = some '#') = false := by
        simp [comment]
      simp only [statement, Bool.false_eq_true, if_false]
      constructor
      · intro none
        split at none
        · cases none
        · cases none
      · intro silent
        exact absurd (silent c rfl) comment

/-- What a statement that was run reports: an assignment its warnings, a plot its pipeline, each with
the number of its line, and other statements nothing. -/
inductive Reports (n : Nat) : Statement → Report → Prop
  | assign (text : String) (warnings : List Ambiguity) :
    Reports n (.assign text) { warnings := warnings.map fun a => ⟨n, a.text⟩ }
  | remove (name : String) : Reports n (.remove name) {}
  | rename (old new : String) : Reports n (.rename old new) {}
  | plot (descriptor : String) (bindings : List (String × String)) (name : String) (v : VersionId)
      (pipeline : Pipeline) :
    Reports n (.plot descriptor bindings) { pipelines := [⟨n, name, v, pipeline⟩] }

theorem reports_of_run {s : Statement} {n : Nat} (run : on (s.run env n) w = (.ok r, w')) :
    Reports n s r := by
  cases s with
  | assign text =>
    obtain ⟨warnings, _, -, done⟩ := on_bind_eq_ok.1 run
    cases done
    exact .assign text warnings
  | remove name =>
    obtain ⟨_, _, -, done⟩ := on_bind_eq_ok.1 run
    cases done
    exact .remove name
  | rename old new =>
    obtain ⟨_, _, -, done⟩ := on_bind_eq_ok.1 run
    cases done
    exact .rename old new
  | plot descriptor bindings =>
    obtain ⟨plot, _, -, run⟩ := on_bind_eq_ok.1 run
    obtain ⟨_, _, -, run⟩ := on_bind_eq_ok.1 run
    obtain ⟨version, _, -, run⟩ := on_bind_eq_ok.1 run
    obtain ⟨pipeline, _, -, done⟩ := on_bind_eq_ok.1 run
    cases done
    exact .plot descriptor bindings plot.name version pipeline

theorem keeps_bindAll (recipe : Recipe) (bindings : List (String × String)) :
    Keeps (bindAll recipe bindings) := by
  induction bindings generalizing recipe with
  | nil => exact fun w => rfl
  | cons b bindings ih =>
    exact (keeps_known b.2).bind fun x => ih (recipe.bind b.1 x)

theorem keepsOnError_run (env : Surroundings) (n : Nat) (s : Statement) :
    KeepsOnError (s.run env n) := by
  cases s with
  | assign text => exact (keepsOnError_performOperation text).bind_pure _
  | remove name => exact (keepsOnError_removeVariable name).bind_pure _
  | rename old new => exact (keepsOnError_renameVariable old new).bind_pure _
  | plot descriptor bindings =>
    have keeps : Keeps ((plot descriptor bindings).run env n) :=
      (env.keeps_plot descriptor).bind fun p => (keeps_bindAll ⟨p, ∅⟩ bindings).bind fun recipe =>
        (keeps_act _).bind fun v => (keeps_act _).bind fun pipeline w => rfl
    exact keeps.onError

/-- What a line does: nothing if it is blank or a comment, and else what its statement does, or it
fails and is reported with its number, and the variables stay as they are. -/
inductive Turn (env : Surroundings) (n : Nat) (line : String) (w : Workspace) :
    Report → Workspace → Prop
  | silent (silent : Silent line) : Turn env n line w {} w
  | malformed {e : Error} (read : ofLine? line = some (.error e)) :
    Turn env n line w { errors := [⟨n, e.message⟩] } w
  | failed {s : Statement} {e : Error} {w' : Workspace} (read : ofLine? line = some (.ok s))
      (run : on (s.run env n) w = (.error e, w')) (kept : w'.named = w.named) :
    Turn env n line w { errors := [⟨n, e.message⟩] } w'
  | done {s : Statement} {r : Report} {w' : Workspace} (read : ofLine? line = some (.ok s))
      (run : on (s.run env n) w = (.ok r, w')) (reports : Reports n s r) : Turn env n line w r w'

theorem runLine_eq : runLine env n line w = (r, w') ↔ Turn env n line w r w' := by
  constructor
  · intro run
    unfold runLine at run
    rcases read : ofLine? line with _ | e | s
    · simp only [read] at run
      cases run
      exact .silent (ofLine?_eq_none.1 read)
    · simp only [read] at run
      cases run
      exact .malformed read
    · rcases ran : on (s.run env n) w with ⟨e | r, w'⟩
      · simp only [read, ran] at run
        cases run
        exact .failed read ran (keepsOnError_run env n s ran)
      · simp only [read, ran] at run
        cases run
        exact .done read ran (reports_of_run ran)
  · intro turn
    unfold runLine
    cases turn with
    | silent silent => rw [ofLine?_eq_none.2 silent]
    | malformed read => rw [read]
    | failed read run => simp only [read, run]
    | done read run => simp only [read, run]

/-- Lines, from the one of number `n` on, are run once each, one after the other. -/
inductive Executes (env : Surroundings) :
    Nat → List String → Workspace → Report → Workspace → Prop
  | done (n : Nat) (w : Workspace) : Executes env n [] w (.ofVariables w.named) w
  | line {n : Nat} {line : String} {lines : List String} {w u w' : Workspace} {r r' : Report}
      (turn : Turn env n line w r u) (later : Executes env (n + 1) lines u r' w') :
    Executes env n (line :: lines) w (r.append r') w'

theorem runLines_eq : runLines env n lines w = (r, w') ↔ Executes env n lines w r w' := by
  constructor
  · intro run
    induction lines generalizing n w r with
    | nil =>
      cases run
      exact .done ..
    | cons line lines ih =>
      cases run
      exact .line (runLine_eq.1 rfl) (ih rfl)
  · intro executes
    induction executes with
    | done => rfl
    | line turn later ih => simp only [runLines, runLine_eq.2 turn, ih]

theorem Executes.named (executes : Executes env n lines w r w') :
    r.named = (Report.ofVariables w'.named).named := by
  induction executes with
  | done => rfl
  | line turn later ih => exact ih

/-- Numbers of lines with a property, where the lines are counted from `n` on; no line is numbered
twice. -/
structure Numbers (p : String → Prop) (n : Nat) (lines : List String) (numbers : List Nat) :
    Prop where
  mem : ∀ i ∈ numbers, ∃ line, (line, i) ∈ lines.zipIdx n ∧ p line
  once : numbers.Pairwise (· < ·)

section Numbers

variable {p : String → Prop} {first later : List String} {is js : List Nat}

theorem numbers_nil : Numbers p n lines [] := ⟨nofun, .nil⟩

theorem numbers_singleton (holds : p line) : Numbers p n [line] [n] :=
  ⟨by simpa using holds, List.pairwise_singleton ..⟩

theorem Numbers.bounds (numbers : Numbers p n lines is) :
    ∀ i ∈ is, n ≤ i ∧ i < n + lines.length := by
  intro i listed
  obtain ⟨line, there, -⟩ := numbers.mem i listed
  exact ⟨(List.mem_zipIdx there).1, (List.mem_zipIdx there).2.1⟩

theorem Numbers.append (numbers : Numbers p n first is)
    (numbers' : Numbers p (n + first.length) later js) : Numbers p n (first ++ later) (is ++ js) where
  mem := by
    intro i listed
    rw [List.zipIdx_append]
    rcases List.mem_append.1 listed with listed | listed
    · obtain ⟨line, there, holds⟩ := numbers.mem i listed
      exact ⟨line, List.mem_append_left _ there, holds⟩
    · obtain ⟨line, there, holds⟩ := numbers'.mem i listed
      exact ⟨line, List.mem_append_right _ there, holds⟩
  once := by
    refine List.pairwise_append.2 ⟨numbers.once, numbers'.once, fun i before j after => ?_⟩
    have := numbers.bounds i before
    have := numbers'.bounds j after
    omega

end Numbers

def IsPlot (line : String) : Prop :=
  ∃ descriptor bindings, ofLine? line = some (.ok (.plot descriptor bindings))

/-- What a report says of the lines from the number `n` on: each has at most one error, which a line
that is blank or a comment has not, and at most one pipeline, which only a plot without an error has. -/
structure Accounts (n : Nat) (lines : List String) (r : Report) : Prop where
  errors : Numbers (¬ Silent ·) n lines (r.errors.map Report.Message.line)
  pipelines : Numbers IsPlot n lines (r.pipelines.map Report.Plot.line)
  apart : List.Disjoint (r.pipelines.map Report.Plot.line) (r.errors.map Report.Message.line)

theorem accounts_error (speaks : ¬ Silent line) (text : String) :
    Accounts n [line] { errors := [⟨n, text⟩] } :=
  ⟨numbers_singleton speaks, numbers_nil, List.disjoint_nil_left _⟩

theorem Reports.accounts {s : Statement} (reports : Reports n s r)
    (read : ofLine? line = some (.ok s)) : Accounts n [line] r := by
  cases reports with
  | plot descriptor bindings name v pipeline =>
    exact ⟨numbers_nil, numbers_singleton ⟨descriptor, bindings, read⟩, List.disjoint_nil_right _⟩
  | _ => exact ⟨numbers_nil, numbers_nil, List.disjoint_nil_left _⟩

theorem Turn.accounts (turn : Turn env n line w r w') : Accounts n [line] r := by
  have speaks {s : Except Error Statement} (read : ofLine? line = some s) : ¬ Silent line := by
    rw [← ofLine?_eq_none, read]
    exact Option.some_ne_none s
  cases turn with
  | silent => exact ⟨numbers_nil, numbers_nil, List.disjoint_nil_left _⟩
  | malformed read => exact accounts_error (speaks read) _
  | failed read => exact accounts_error (speaks read) _
  | done read run reports => exact reports.accounts read

theorem Accounts.append {first later : List String} (accounts : Accounts n first r)
    (accounts' : Accounts (n + first.length) later r') :
    Accounts n (first ++ later) (r.append r') where
  errors := by
    rw [Report.append, List.map_append]
    exact accounts.errors.append accounts'.errors
  pipelines := by
    rw [Report.append, List.map_append]
    exact accounts.pipelines.append accounts'.pipelines
  apart := by
    rw [Report.append, List.map_append, List.map_append, List.disjoint_append_left,
      List.disjoint_append_right, List.disjoint_append_right]
    refine ⟨⟨accounts.apart, fun i drawn failed => ?_⟩, fun i drawn failed => ?_, accounts'.apart⟩
    · have := accounts.pipelines.bounds i drawn
      have := accounts'.errors.bounds i failed
      omega
    · have := accounts'.pipelines.bounds i drawn
      have := accounts.errors.bounds i failed
      omega

theorem Executes.accounts (executes : Executes env n lines w r w') : Accounts n lines r := by
  induction executes with
  | done => exact ⟨numbers_nil, numbers_nil, List.disjoint_nil_left _⟩
  | line turn later ih => exact turn.accounts.append ih

/-- Two scripts run one after the other as they run as one text, and every line of a script is run
once and in order, whatever became of the lines before it, and has its part of the report. -/
theorem runScript_exact (env : Surroundings) :
    (∀ first later w, runScript env (first ++ "\n" ++ later) w =
      let (r, w') := runScript env (first ++ "\n") w
      let (s, w'') := runScript env later w'
      (r.append (s.shift (Text.lines (first ++ "\n")).length), w'')) ∧
    ∀ text w,
      let (r, w') := runScript env text w
      Executes env 1 (Text.lines text) w r w' ∧ Accounts 1 (Text.lines text) r ∧
        r.named = (Report.ofVariables w'.named).named := by
  refine ⟨runScript_append env, fun text w => ?_⟩
  have executes := runLines_eq.1 (rfl : runScript env text w = _)
  exact ⟨executes, executes.accounts, executes.named⟩

end Statement

end Dataflow
