import Dataflow.Proofs.Operation.Drawings
import Dataflow.Proofs.Variable.Built

/-! Templates. Their connections start at outputs that were taken over or at copied modules, so the
result speaks of its own modules; and it draws a pipeline apart from all others, if its arguments did. -/

namespace Dataflow.Operation

open Variable (Drawings)

variable {h : Host} {op : Operation} {s t u : Store} {x y : Variable}

theorem absorbNamed_cons_eq_ok {p : Parameter} {rest : List (Parameter × Variable)}
    {inputs : List (String × PortRef)} {z : Variable}
    (absorb : absorbNamed x ((p, y) :: rest) = .ok (inputs, z)) :
    ∃ o x' inputs', x.absorb y = .ok (o, x') ∧ absorbNamed x' rest = .ok (inputs', z) ∧
      inputs = (p.name, o) :: inputs' := by
  rw [absorbNamed] at absorb
  cases first : x.absorb y with
  | error e => simp [first, bind, Except.bind] at absorb
  | ok result =>
    obtain ⟨o, x'⟩ := result
    cases others : absorbNamed x' rest with
    | error e => simp [first, others, bind, Except.bind] at absorb
    | ok result =>
      obtain ⟨inputs', z'⟩ := result
      simp only [first, others, bind, Except.bind, pure, Except.pure, Except.ok.injEq,
        Prod.mk.injEq] at absorb
      obtain ⟨rfl, rfl⟩ := absorb
      exact ⟨o, x', inputs', rfl, others, rfl⟩

theorem contains_absorbNamed {arguments : List (Parameter × Variable)}
    {inputs : List (String × PortRef)} (own : ∀ a ∈ arguments, a.2.HasOutput)
    (absorb : absorbNamed x arguments = .ok (inputs, y)) :
    (∀ id, x.draft.contains id = true → y.draft.contains id = true) ∧
      ∀ e ∈ inputs, y.draft.contains e.2.module = true := by
  induction arguments generalizing x inputs with
  | nil =>
    cases absorb
    exact ⟨fun _ there => there, by simp⟩
  | cons a rest ih =>
    obtain ⟨o, x', inputs', first, others, rfl⟩ := absorbNamed_cons_eq_ok absorb
    have there := own a (List.mem_cons_self ..) x first
    obtain ⟨kept, known⟩ := ih (fun b hb => own b (List.mem_cons_of_mem _ hb)) others
    obtain ⟨-, -, rfl⟩ := Variable.absorb_eq_ok first
    refine ⟨fun id hid => kept id ?_, fun e he => ?_⟩
    · rw [Draft.contains_append, hid, Bool.or_true]
    · rcases List.mem_cons.1 he with rfl | he
      · refine kept _ ?_
        rw [Draft.contains_append, there, Bool.true_or]
      · exact known e he

theorem drawings_absorbNamed {arguments : List (Parameter × Variable)}
    {inputs : List (String × PortRef)} (hd : Drawings s t (x :: arguments.map Prod.snd))
    (absorb : absorbNamed x arguments = .ok (inputs, y)) : Drawings s t [y] := by
  induction arguments generalizing x inputs with
  | nil =>
    cases absorb
    exact hd
  | cons a rest ih =>
    obtain ⟨o, x', inputs', first, others, rfl⟩ := absorbNamed_cons_eq_ok absorb
    exact ih (hd.absorb first) others

theorem proper_absorbNamed {arguments : List (Parameter × Variable)}
    {inputs : List (String × PortRef)} (hx : x.Proper) (proper : ∀ a ∈ arguments, a.2.Proper)
    (absorb : absorbNamed x arguments = .ok (inputs, y)) : y.Proper := by
  induction arguments generalizing x inputs with
  | nil =>
    cases absorb
    exact hx
  | cons a rest ih =>
    obtain ⟨o, x', inputs', first, others, rfl⟩ := absorbNamed_cons_eq_ok absorb
    have taken := hx.absorb (proper a (List.mem_cons_self ..)) first
    exact ih taken (fun b hb => proper b (List.mem_cons_of_mem _ hb)) others

theorem moduleOf_eq_ok_iff {op : Operation} {template : Pipeline} {k : ModuleId} {m : Module} :
    op.moduleOf template k = .ok m ↔ template.modules.get? k = some m := by
  unfold moduleOf
  cases template.modules.get? k <;> simp

theorem copied_eq_ok_iff {op : Operation} {ids : Renaming} {k j : ModuleId} :
    op.copied ids k = .ok j ↔ ids.get? k = some j := by
  unfold copied
  cases ids.get? k <;> simp

/-- Ports that a template's connections may start at are on modules of the draft. -/
structure Reaches (x : Variable) (ids : Renaming) (inputs : List (String × PortRef)) : Prop where
  ids : ∀ k j, ids.get? k = some j → x.draft.contains j = true
  inputs : ∀ e ∈ inputs, x.draft.contains e.2.module = true

theorem Reaches.feedOf {ids : Renaming} {inputs : List (String × PortRef)}
    (reaches : Reaches x ids inputs) {types : Placeholders} {source : Module} {port : String}
    {feed : PortRef} (found : op.feedOf types ids inputs source port = .ok feed) :
    x.draft.contains feed.module = true := by
  unfold Operation.feedOf at found
  split at found
  · unfold inputOf at found
    split at found
    · cases found
    · split at found
      · next e he =>
        cases found
        exact reaches.inputs e (List.mem_reverse.1 (List.mem_of_find?_eq_some he))
      · cases found
  · cases copy : op.copied ids source.id with
    | error e => simp [copy, Except.map] at found
    | ok m =>
      rw [copy] at found
      cases found
      exact reaches.ids _ m (copied_eq_ok_iff.1 copy)

theorem Reaches.connect {ids : Renaming} {inputs : List (String × PortRef)}
    (reaches : Reaches x ids inputs) {source destination : PortRef}
    (run : (x.connect source destination).on t = (.ok y, u)) :
    Reaches y ids inputs ∧ y.draft.contains = x.draft.contains := by
  obtain ⟨⟨id, d⟩, v, connected, rest⟩ := Action.on_bind_eq_ok.1 run
  obtain ⟨own, own', rfl, rfl⟩ := Draft.connect_eq_ok connected
  cases rest
  exact ⟨⟨reaches.ids, reaches.inputs⟩, rfl⟩

section

variable {template : Pipeline} {types : Placeholders} {ids : Renaming}
  {inputs : List (String × PortRef)} {output found : Option PortRef} {cs : List Connection}

/-- What holds of a variable and is kept by its connections holds of the copy of a template. -/
theorem copyTemplate_induction (P : Store → Variable → Option PortRef → Prop)
    (connect : ∀ {t u x y output source destination}, P t x output →
      (Variable.connect x source destination).on t = (.ok y, u) → P u y output)
    (designate : ∀ {t x feed} {source : Module} {port : String}, P t x none →
      op.feedOf types ids inputs source port = .ok feed → P t x (some feed))
    (start : P t x output)
    (run : (op.copyTemplate template types ids inputs x output cs).on t = (.ok (y, found), u)) :
    P u y found := by
  induction cs generalizing x output t with
  | nil =>
    cases run
    exact start
  | cons c cs ih =>
    rw [copyTemplate_cons] at run
    obtain ⟨source, -, run⟩ := Action.on_ofExcept_bind_eq_ok.1 run
    obtain ⟨target, -, run⟩ := Action.on_ofExcept_bind_eq_ok.1 run
    obtain ⟨feed, fed, run⟩ := Action.on_ofExcept_bind_eq_ok.1 run
    split at run
    · cases output with
      | some port => cases run
      | none => exact ih (designate start fed) run
    · obtain ⟨m, -, run⟩ := Action.on_ofExcept_bind_eq_ok.1 run
      obtain ⟨z, v, connected, run⟩ := Action.on_bind_eq_ok.1 run
      exact ih (connect start connected) run

theorem contains_copyTemplate (reaches : Reaches x ids inputs)
    (run : (op.copyTemplate template types ids inputs x none cs).on t = (.ok (y, found), u)) :
    ∀ o ∈ found, y.draft.contains o.module = true := by
  refine (copyTemplate_induction (fun _ x output => Reaches x ids inputs ∧
    ∀ o ∈ output, x.draft.contains o.module = true) ?_ ?_ ⟨reaches, by simp⟩ run).2
  · rintro t u x y output source destination ⟨reaches, known⟩ connected
    obtain ⟨reaches', same⟩ := reaches.connect connected
    exact ⟨reaches', by rwa [same]⟩
  · rintro t x feed source port ⟨reaches, -⟩ fed
    refine ⟨reaches, fun o ho => ?_⟩
    cases ho
    exact reaches.feedOf fed

theorem drawings_copyTemplate (before : s.Precedes t) (hd : Drawings s t [x])
    (run : (op.copyTemplate template types ids inputs x output cs).on t = (.ok (y, found), u)) :
    Drawings s u [y] := by
  refine (copyTemplate_induction (fun t x _ => s.Precedes t ∧ Drawings s t [x]) ?_ ?_
    ⟨before, hd⟩ run).2
  · rintro t u x y output source destination ⟨before, hd⟩ connected
    have mints := Action.mints_of_run (x.minting_connect source destination) connected
    exact ⟨before.trans mints.precedes, hd.connect before connected⟩
  · rintro t x feed source port kept -
    exact kept

theorem proper_copyTemplate (hx : x.Proper)
    (run : (op.copyTemplate template types ids inputs x output cs).on t = (.ok (y, found), u)) :
    y.Proper := by
  refine copyTemplate_induction (fun _ x _ => x.Proper) ?_ ?_ hx run
  · intro t u x y output source destination proper connected
    exact proper.connect connected
  · intro t x feed source port proper _
    exact proper

end

theorem applyTemplate_eq_ok {template : Pipeline} {arguments : List Variable}
    (run : (op.applyTemplate h template arguments).on t = (.ok y, u)) :
    ∃ (types : Placeholders) (inputs : List (String × PortRef)) (x : Variable) (ids : Renaming)
      (d : Draft) (v : Store) (z : Variable) (port : PortRef),
      absorbNamed { type := op.returns } (op.parameters.zip arguments) = .ok (inputs, x) ∧
      (x.draft.copyModules ∅ (template.modules.values.filter fun m =>
        m.type != types.input && m.type != types.output)).on t = (.ok (ids, d), v) ∧
      (op.copyTemplate template types ids inputs { x with draft := d } none
        template.connections.values).on v = (.ok (z, some port), u) ∧
      y = { z with output := some port } := by
  obtain ⟨input, -, run⟩ := Action.on_ofExcept_bind_eq_ok.1 run
  obtain ⟨output, -, run⟩ := Action.on_ofExcept_bind_eq_ok.1 run
  obtain ⟨⟨inputs, x⟩, absorb, run⟩ := Action.on_ofExcept_bind_eq_ok.1 run
  obtain ⟨⟨ids, d⟩, v, copy, run⟩ := Action.on_bind_eq_ok.1 run
  obtain ⟨⟨z, found⟩, w, connections, run⟩ := Action.on_bind_eq_ok.1 run
  cases found with
  | none => cases run
  | some port =>
    cases run
    exact ⟨⟨input, output⟩, inputs, x, ids, d, v, z, port, absorb, copy, connections, rfl⟩

private theorem map_snd_zip_sublist (ps : List α) (xs : List β) :
    ((ps.zip xs).map Prod.snd).Sublist xs := by
  induction ps generalizing xs with
  | nil => simp
  | cons p ps ih =>
    cases xs with
    | nil => simp
    | cons x xs => exact (ih xs).cons_cons x

theorem drawings_applyTemplate (before : s.Precedes t) {template : Pipeline}
    {arguments : List Variable} (hd : Drawings s t arguments)
    (run : (op.applyTemplate h template arguments).on t = (.ok y, u)) : Drawings s u [y] := by
  obtain ⟨types, inputs, x, ids, d, v, z, port, absorb, copy, connections, rfl⟩ :=
    applyTemplate_eq_ok run
  have taken := (hd.new op.returns).sublist
    ((map_snd_zip_sublist op.parameters arguments).cons_cons _)
  have outputs : ∀ a ∈ op.parameters.zip arguments, a.2.HasOutput := fun a ha => by
    obtain ⟨g, drawn, -⟩ := hd.drawn a.2 (List.of_mem_zip ha).2
    exact drawn.hasOutput
  obtain ⟨-, own⟩ := contains_absorbNamed outputs absorb
  obtain ⟨g, hx, minted⟩ := (drawings_absorbNamed taken absorb).drawn x (List.mem_cons_self ..)
  have mints := x.draft.minting_copyModules ∅ (template.modules.values.filter fun m =>
    m.type != types.input && m.type != types.output) t
  obtain ⟨copied, kept⟩ := Draft.contains_of_copyModules (by simp) copy
  obtain ⟨g', drawn, minted', -⟩ := hx.draws.of_copyModules minted before copy
  rw [copy] at mints
  have hz : Variable.Drawn { x with draft := d } g' := by
    refine ⟨hx.unwritten, drawn, fun {o} ho => ?_⟩
    rw [← drawn.contains]
    exact kept _ ((hx.draws.contains _).trans (hx.output ho))
  have reaches : Reaches { x with draft := d } ids inputs :=
    ⟨copied, fun a ha => kept _ (own a ha)⟩
  have result := drawings_copyTemplate (before.trans mints.precedes)
    (Variable.drawings_singleton hz minted') connections
  refine result.congr_head fun p hp => ⟨hp.unwritten, hp.draws, fun {o} ho => ?_⟩
  cases ho
  exact (hp.draws.contains _).symm.trans (contains_copyTemplate reaches connections port rfl)

theorem proper_applyTemplate {template : Pipeline} {arguments : List Variable}
    (proper : ∀ x ∈ arguments, x.Proper)
    (run : (op.applyTemplate h template arguments).on t = (.ok y, u)) : y.Proper := by
  obtain ⟨types, inputs, x, ids, d, v, z, port, absorb, copy, connections, rfl⟩ :=
    applyTemplate_eq_ok run
  have given : ∀ a ∈ op.parameters.zip arguments, a.2.Proper := fun a ha =>
    proper a.2 (List.of_mem_zip ha).2
  obtain ⟨-, own⟩ := contains_absorbNamed (fun a ha => (given a ha).hasOutput) absorb
  have hx := proper_absorbNamed (.new op.returns) given absorb
  obtain ⟨copied, kept⟩ := Draft.contains_of_copyModules (by simp) copy
  have hd : Variable.Proper { x with draft := d } := fun unwritten =>
    ⟨(hx unwritten).draft.of_copyModules copy, fun ho => kept _ ((hx unwritten).output ho)⟩
  have reaches : Reaches { x with draft := d } ids inputs :=
    ⟨copied, fun a ha => kept _ (own a ha)⟩
  intro unwritten
  refine ⟨(proper_copyTemplate hd connections unwritten).draft, fun ho => ?_⟩
  cases ho
  exact contains_copyTemplate reaches connections port rfl

end Dataflow.Operation
