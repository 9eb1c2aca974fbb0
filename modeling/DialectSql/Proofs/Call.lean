import DialectSql.Context
import DialectSql.Proofs.Refusal

/-!
# Calls

A statement can be written by any number of calls on one context: values, whole nodes, and further
calls inside a subquery. Whether a call comes out well or fails half-way, it leaves the context at
the depth at which it found it, and it binds its parameters behind those that are there.

## Main definitions

* `Value.Bindable` — the values that a dialect takes as parameters
* `Context.Call`, `Context.Calls` — one call, and several one behind the other
* `Context.Reached` — the contexts that calls get to see
* `Context.Lawful`, `Context.Extends` — what is true of every such context, and what a call keeps

## Main results

* `Context.write_append`, `Context.nested_write` — a draft is written part by part, and the draft of
  a subquery inside of the subquery
* `Context.Call.extends` — what a call keeps
* `Context.Reached.lawful` — what is true of every context that is reached
* `Context.Call.kept` — both together, for every call on every context that is reached
-/

namespace DialectSql

/-! ## Constants -/

/-- The values that a dialect takes as parameters. -/
structure Value.Bindable (d : Dialect) (v : Value) : Prop where
  /-- NULL is a keyword. -/
  notNull : v ≠ .null
  /-- A member of an enumeration is bound as its number. -/
  notMember : ∀ typeName number, v ≠ .member typeName number
  /-- One dialect has bits in place of truth values. -/
  notBool : d = .sqlServer → ∀ b, v ≠ .bool b

/-- A value that is not NULL is bound as one that the dialect takes. -/
theorem Value.bindable_bound (d : Dialect) {v : Value} (h : v.isNull = false) :
    (v.bound d).Bindable d := by
  cases v with
  | null => cases h
  | bool b => cases d <;> constructor <;> simp [bound, Dialect.boundBool]
  | _ => constructor <;> simp [bound]

namespace Draft

/-- The constants of a sequence are those of its parts, as far as they are reached. -/
theorem mem_constants_append {a b : Draft} {v : Value} (h : v ∈ (a ++ b).constants) :
    v ∈ a.constants ∨ v ∈ b.constants := by
  cases ha : a.failure with
  | none =>
    rw [constants_append ha] at h
    exact List.mem_append.mp h
  | some e =>
    rw [append_of_failure ha] at h
    exact .inl h

/-- No constant of a composed draft is NULL, even if the draft was cut short. -/
theorem Composed.isNull_eq_false {d : Dialect} {T : String → Prop} {a : Draft}
    (h : a.Composed d T) : ∀ v ∈ a.constants, v.isNull = false := by
  induction h with
  | empty | text | quoted | bare | missing =>
    intro v hv
    cases hv
  | value hv =>
    intro w hw
    obtain rfl := List.mem_singleton.mp hw
    exact hv
  | append _ _ iha ihb =>
    intro v hv
    rcases mem_constants_append hv with ha | hb
    · exact iha v ha
    · exact ihb v hb
  | parens _ ih =>
    intro v hv
    -- Parentheses themselves hold no constants.
    rcases mem_constants_append hv with hopen | hclosing
    · rcases mem_constants_append hopen with hopening | hinner
      · cases hopening
      · exact ih v hinner
    · cases hclosing

end Draft

/-- No constant of a node is NULL, even if the node cannot be written. -/
theorem Node.isNull_eq_false (node : Node) (s : Setting) :
    ∀ v ∈ (Drafted.draft node s).constants, v.isNull = false := by
  cases h : node.refusal? s.dialect with
  | some e =>
    rw [draft_of_refusal h]
    intro v hv
    cases hv
  | none => exact (composed_draft h).isNull_eq_false

/-- A parameter carries the bound form of the constant that it stands for. -/
theorem map_value_parametersFrom {σ : Type} (supply : Supply σ) (d : Dialect) (base : String)
    (index : Nat) (values : List Value) (state : σ) :
    (parametersFrom supply d base index values state).1.map (·.value) = values.map (·.bound d) := by
  induction values generalizing index state with
  | nil => rfl
  | cons v values ih => rw [parametersFrom, List.map_cons, ih, List.map_cons]

/-- The parameters of a sequence of constants are those of its first part, and those of its second
part with the numbers that follow. -/
theorem parametersFrom_append {σ : Type} (supply : Supply σ) (d : Dialect) (base : String)
    (index : Nat) (vs ws : List Value) (state : σ) :
    parametersFrom supply d base index (vs ++ ws) state =
      let (front, next) := parametersFrom supply d base index vs state
      let (back, last) := parametersFrom supply d base (index + vs.length) ws next
      (front ++ back, last) := by
  induction vs generalizing index state with
  | nil => rfl
  | cons v vs ih =>
    have hindex : index + (v :: vs).length = index + 1 + vs.length := by
      rw [List.length_cons]
      omega
    rw [List.cons_append, hindex]
    simp only [parametersFrom, ih, List.cons_append]

namespace Context

/-! ## Writing -/

/-- A draft is placed part by part. -/
theorem place_append (c : Context) {a : Draft} (h : a.failure = none) (b : Draft) :
    c.place (a ++ b) =
      let (front, next) := c.place a
      let (back, last) := next.place b
      (front ++ back, last) := by
  obtain ⟨⟨d, config, mode, depth⟩, parameters⟩ := c
  cases mode with
  | inline => simp only [place, Draft.literalText_append h]
  | bound =>
    simp only [place, Draft.placeholderText_eq_written, Draft.written_append h,
      Draft.constants_append h, parametersFrom_append, List.length_append, length_parametersFrom,
      List.append_assoc]

/-- A draft without constants is placed as it is. -/
theorem place_of_constants_eq_nil (c : Context) {draft : Draft} (h : draft.constants = []) :
    c.place draft = (draft.literalText c.setting.dialect, c) := by
  obtain ⟨⟨d, config, mode, depth⟩, parameters⟩ := c
  cases mode with
  | inline => rfl
  | bound =>
    simp only [place, Draft.placeholderText_of_constants_eq_nil h, h, parametersFrom,
      List.append_nil]

/-- A piece that is no constant is placed as it is. -/
theorem place_piece (c : Context) {p : Piece} (h : p.value? = none) :
    c.place (.piece p) = (p.literalText c.setting.dialect, c) := by
  have hconstants : (Draft.piece p).constants = [] := by
    simp [Draft.piece, Draft.constants, h]
  rw [place_of_constants_eq_nil c hconstants]
  simp [Draft.literalText, Draft.piece]

theorem place_text (c : Context) (t : String) : c.place (.text t) = (t, c) := c.place_piece rfl

/-- What has been placed is written if the draft did not fail. -/
theorem write_eq_ok_iff {c next : Context} {draft : Draft} {t : String} :
    c.write draft = (.ok t, next) ↔ draft.failure = none ∧ c.place draft = (t, next) := by
  unfold write
  cases draft.failure with
  | none => simp [Prod.ext_iff]
  | some e => simp

/-- A draft is written part by part. What stands behind a failure is not written, and what stands in
front of it keeps its parameters. -/
theorem write_append (c : Context) (a b : Draft) :
    c.write (a ++ b) =
      match c.write a with
      | (.error e, next) => (.error e, next)
      | (.ok front, next) =>
        let (back, last) := next.write b
        (back.map (front ++ ·), last) := by
  unfold write
  cases ha : a.failure with
  | some e => rw [Draft.append_of_failure ha]; simp only [ha]
  | none =>
    rw [place_append c ha, Draft.failure_append, ha, Option.none_or]
    cases b.failure <;> rfl

/-- The draft of a subquery is written inside of the subquery. -/
theorem nested_write (c : Context) (draft : Setting → Draft) :
    c.nested (fun inner => inner.write (draft inner.setting)) =
      c.write (draft c.setting.nested) := by
  obtain ⟨⟨d, config, mode, depth⟩, parameters⟩ := c
  have hinner : (enter ⟨⟨d, config, mode, depth⟩, parameters⟩).setting =
      ⟨d, config, mode, depth + 1⟩ := rfl
  have hnested : (⟨d, config, mode, depth⟩ : Setting).nested = ⟨d, config, mode, depth + 1⟩ := rfl
  simp only [nested, hinner, hnested]
  unfold write
  -- Neither the text nor the parameters of a draft depend on the depth at which it is placed.
  cases mode <;> cases (draft ⟨d, config, _, depth + 1⟩).failure <;> rfl

/-! ## Calls -/

mutual

/-- One call, from the context in front of it to the context behind it. -/
inductive Call : Context → Context → Prop
  /-- A constant. -/
  | value (c : Context) (v : Value) : Call c (c.value v).2
  /-- A node, whether it can be written or not. -/
  | render (c : Context) (node : Node) : Call c (c.render node).2
  /-- The column and the value of an assignment. -/
  | columnAndValue (c : Context) (a : Assignment) : Call c (c.columnAndValue a).2
  /-- Calls inside a subquery, whatever comes of them. -/
  | nested {α : Type} (c : Context) (steps : Context → α × Context)
    (h : Calls c.enter (steps c.enter).2) : Call c (c.nested steps).2

/-- Calls one behind the other. -/
inductive Calls : Context → Context → Prop
  | nil (c : Context) : Calls c c
  | cons {c c' c'' : Context} (first : Call c c') (rest : Calls c' c'') : Calls c c''

end

/-- The contexts that calls get to see: between calls, and at the beginning of a subquery. -/
inductive Reached (d : Dialect) (config : Config) (mode : Mode) : Context → Prop
  | start : Reached d config mode (.start d config mode)
  | call {c c' : Context} (h : Reached d config mode c) (step : Call c c') :
    Reached d config mode c'
  | enter {c : Context} (h : Reached d config mode c) : Reached d config mode c.enter

/-- What a call keeps: where writing stands, and the parameters that are there. New parameters have
the next numbers and values that the dialect takes, and there are none among literals. -/
structure Extends (c c' : Context) : Prop where
  setting : c'.setting = c.setting
  parameters : ∃ new, c'.parameters = c.parameters ++ new ∧
    new.map (·.name) = (List.range' c.parameters.length new.length).map
      (c.setting.dialect.parameterName c.setting.config.parameterBase) ∧
    (∀ p ∈ new, p.value.Bindable c.setting.dialect) ∧
    (c.setting.mode = .inline → new = [])

/-- What is true of every context that is reached. -/
structure Lawful (d : Dialect) (config : Config) (mode : Mode) (c : Context) : Prop where
  setting : ∃ depth, c.setting = ⟨d, config, mode, depth⟩
  names : c.parameters.map (·.name) =
    (List.range' 0 c.parameters.length).map (d.parameterName config.parameterBase)
  values : ∀ p ∈ c.parameters, p.value.Bindable d
  inline : mode = .inline → c.parameters = []

namespace Extends

theorem refl (c : Context) : Extends c c :=
  ⟨rfl, [], by simp⟩

theorem trans {c c' c'' : Context} (h : Extends c c') (h' : Extends c' c'') : Extends c c'' := by
  obtain ⟨hsetting, new, hnew, hnames, hvalues, hinline⟩ := h
  obtain ⟨hsetting', new', hnew', hnames', hvalues', hinline'⟩ := h'
  rw [hsetting] at hsetting' hnames' hvalues' hinline'
  refine ⟨hsetting', new ++ new', ?_, ?_, ?_, fun hmode => ?_⟩
  · rw [hnew', hnew, List.append_assoc]
  · rw [hnew, List.length_append] at hnames'
    rw [List.map_append, hnames, hnames', List.length_append, ← List.map_append,
      List.range'_append_1]
  · rw [List.forall_mem_append]
    exact ⟨hvalues, hvalues'⟩
  · rw [hinline hmode, hinline' hmode, List.append_nil]

/-- A draft without NULL among its constants is placed behind what is there. -/
theorem place (c : Context) {draft : Draft} (h : ∀ v ∈ draft.constants, v.isNull = false) :
    Extends c (c.place draft).2 := by
  obtain ⟨⟨d, config, mode, depth⟩, parameters⟩ := c
  cases mode with
  | inline => exact .refl _
  | bound =>
    refine ⟨rfl, _, rfl, ?_, fun p hp => ?_, fun hmode => by cases hmode⟩
    · rw [map_name_parametersFrom, length_parametersFrom]
    · have hvalue : p.value ∈ draft.constants.map (·.bound d) := by
        rw [← map_value_parametersFrom .blank d config.parameterBase parameters.length
          draft.constants ()]
        exact List.mem_map_of_mem hp
      obtain ⟨v, hv, hbound⟩ := List.mem_map.mp hvalue
      rw [← hbound]
      exact v.bindable_bound d (h v hv)

/-- Writing places what can be written. -/
theorem write (c : Context) {draft : Draft} (h : ∀ v ∈ draft.constants, v.isNull = false) :
    Extends c (c.write draft).2 := by
  have hplace : (c.write draft).2 = (c.place draft).2 := by
    unfold Context.write
    cases draft.failure <;> rfl
  rw [hplace]
  exact .place c h

/-- What is kept inside a subquery is kept around it. -/
theorem leave {c inner : Context} (h : Extends c.enter inner) : Extends c inner.leave := by
  obtain ⟨hsetting, hparameters⟩ := h
  refine ⟨?_, hparameters⟩
  rw [Context.leave, hsetting]
  rfl

end Extends

mutual

/-- What a call keeps. -/
theorem Call.extends {c c' : Context} : Call c c' → Extends c c'
  | .value c v =>
    .place c (Draft.Composed.constant (d := c.setting.dialect) (T := fun _ => True) v
      trivial).isNull_eq_false
  | .render c node => .write c (node.isNull_eq_false c.setting)
  | .columnAndValue c a => by
    have hcolumn : Extends c (c.place (a.columnDraft c.setting)).2 :=
      .place c (c.setting.composed_changeName (d := c.setting.dialect) _).isNull_eq_false
    exact hcolumn.trans (.write _ (a.composed_valueDraft c.setting).isNull_eq_false)
  | .nested c steps h => .leave h.extends

/-- What calls keep. -/
theorem Calls.extends {c c' : Context} : Calls c c' → Extends c c'
  | .nil c => .refl c
  | .cons first rest => first.extends.trans rest.extends

end

/-- A call keeps what is true of every context. -/
theorem Lawful.extends {d : Dialect} {config : Config} {mode : Mode} {c c' : Context}
    (hc : Lawful d config mode c) (h : Extends c c') : Lawful d config mode c' := by
  obtain ⟨depth, hdepth⟩ := hc.setting
  obtain ⟨hsetting, new, hnew, hnames, hvalues, hinline⟩ := h
  rw [hdepth] at hsetting hnames hvalues hinline
  refine ⟨⟨depth, hsetting⟩, ?_, ?_, fun hmode => ?_⟩
  · -- The new names go on where the old ones end.
    rw [hnew, List.map_append, hc.names, hnames, List.length_append, ← List.map_append,
      ← List.range'_append_1, Nat.zero_add]
  · rw [hnew, List.forall_mem_append]
    exact ⟨hc.values, hvalues⟩
  · rw [hnew, hc.inline hmode, hinline hmode, List.append_nil]

/-- What is true of every context that is reached. -/
theorem Reached.lawful {d : Dialect} {config : Config} {mode : Mode} {c : Context}
    (h : Reached d config mode c) : Lawful d config mode c := by
  induction h with
  | start => exact ⟨⟨0, rfl⟩, rfl, by simp [Context.start], fun _ => rfl⟩
  | call _ step ih => exact ih.extends step.extends
  | enter _ ih =>
    obtain ⟨depth, hdepth⟩ := ih.setting
    exact ⟨⟨depth + 1, by rw [Context.enter, hdepth]; rfl⟩, ih.names, ih.values, ih.inline⟩

/-- A call on a context that is reached leaves writing where it stood, in the dialect, with the
configuration and in the mode of the beginning. The parameters that were bound stay in front of the
new ones. The parameter number `i` has the name of the placeholder number `i`, and its value is one
that the dialect takes. Among literals no parameter is ever bound. All this holds of calls that fail
as well. -/
theorem Call.kept {d : Dialect} {config : Config} {mode : Mode} {c c' : Context}
    (hc : Reached d config mode c) (h : Call c c') :
    c'.setting = c.setting ∧
      (∃ depth, c'.setting = ⟨d, config, mode, depth⟩) ∧
      c.parameters <+: c'.parameters ∧
      (∀ i p, c'.parameters[i]? = some p → p.name = d.parameterName config.parameterBase i) ∧
      (∀ p ∈ c'.parameters, p.value.Bindable d) ∧
      (mode = .inline → c'.parameters = []) := by
  have hkept : Extends c c' := h.extends
  have hlawful : Lawful d config mode c' := (Reached.call hc h).lawful
  obtain ⟨new, hnew, -⟩ := hkept.parameters
  refine ⟨hkept.setting, hlawful.setting, ⟨new, hnew.symm⟩, fun i p hp => ?_, hlawful.values,
    hlawful.inline⟩
  have hname : (c'.parameters.map (·.name))[i]? = some p.name := by
    rw [List.getElem?_map, hp, Option.map_some]
  rw [hlawful.names, List.getElem?_map, Option.map_eq_some_iff] at hname
  obtain ⟨index, hindex, hname⟩ := hname
  obtain ⟨hlt, rfl⟩ := List.getElem?_eq_some_iff.mp hindex
  rw [← hname, List.getElem_range', Nat.zero_add, Nat.one_mul]

/-- A condition on a subquery that a dialect without an operator for its bits cannot write to the
end. -/
def interrupted : Node :=
  .criteria (.inSelect (.ofField ⟨"a", none⟩)
    (((Query.ofTable "T").project (.ofField ⟨"b", none⟩) none).filter
      (.compound .and
        [.expression (.eq (.ofField ⟨"c", none⟩) (.constant (.member "Color" 3))),
          .expression (.bitwise .or (.ofField ⟨"d", none⟩) (.ofField ⟨"e", none⟩))]))
    .isIn)

/-- Inside a subquery a value is written, and then a condition as far as it goes. -/
theorem Call.kept_interrupted :
    let steps (inner : Context) := (inner.value (.text "x")).2.render interrupted
    let (answer, after) := (start .oracle .standard .bound).nested steps
    answer = .error (.unsupported .oracle .bitwiseOr) ∧
      after.setting = (start .oracle .standard .bound).setting ∧
      after.parameters.map (·.name) = [":p0", ":p1"] ∧
      ∀ p ∈ after.parameters, p.value.Bindable .oracle := by
  let steps (inner : Context) := (inner.value (.text "x")).2.render interrupted
  have hinner : Calls (start .oracle .standard .bound).enter
      (steps (start .oracle .standard .bound).enter).2 :=
    .cons (.value _ (.text "x")) (.cons (.render _ interrupted) (.nil _))
  obtain ⟨hsetting, -, -, -, hvalues, -⟩ :=
    kept (.start : Reached .oracle .standard .bound _) (.nested _ steps hinner)
  exact ⟨rfl, hsetting, rfl, hvalues⟩

end Context

end DialectSql
