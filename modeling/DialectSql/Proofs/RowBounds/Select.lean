import DialectSql.Proofs.Composed.Statement
import DialectSql.Proofs.Grouping
import DialectSql.Proofs.RowBounds.Reading
import DialectSql.Proofs.Width.Item

/-!
# Queries without bounds

Outside of its parentheses a query that is not limited has none of the words by which bounds are
found. A derived table of a statement stands in front of its symbol, which is an identifier, so that
no condition on row numbers follows it.

## Main definitions

* `Part.Lacks` — parts without some words
* `Part.States` — the bounds that a query states
* `Part.IsNamed` — what stands behind a FROM that reads no numbered rows
* `Part.IsSelect` — a query without bounds but for one in front of its projection
* `Draft.Has` — drafts whose parts have a property

## Main results

* `Part.IsSelect.states_append` — the bounds of a query with a clause at its end
* `Phrase.has_lacks`, `Draft.Composed.has_lacks` — the words that drafts lack
* `Query.has_unpagedDraft` — a query without limits but for one in front of its projection
-/

namespace DialectSql

open Text

namespace Part

variable {ws : List String} {w : String} {top : Option Nat}
  {front ps qs rest : List (Part Token)}

/-! ## Words -/

/-- Whether some words do not stand outside of parentheses. -/
def Lacks (ws : List String) (parts : List (Part Token)) : Prop :=
  ∀ w ∈ ws, ∀ p ∈ parts, isWord w p = false

instance : Decidable (Lacks ws ps) :=
  inferInstanceAs (Decidable (∀ w ∈ ws, ∀ p ∈ ps, isWord w p = false))

theorem Lacks.nil : Lacks ws [] := fun _ _ _ hp => by cases hp

theorem lacks_append : Lacks ws (ps ++ qs) ↔ Lacks ws ps ∧ Lacks ws qs := by
  simp only [Lacks, List.forall_mem_append, forall_and]

theorem lacks_cons {p : Part Token} :
    Lacks ws (p :: ps) ↔ (∀ w ∈ ws, isWord w p = false) ∧ Lacks ws ps := by
  simp only [Lacks, List.forall_mem_cons, forall_and]

theorem Lacks.word (hw : w ∉ ws) (h : Lacks ws ps) : Lacks ws (leaf (.word w) :: ps) :=
  lacks_cons.mpr ⟨fun _ hv => beq_eq_false_iff_ne.mpr fun heq => hw (heq ▸ hv), h⟩

theorem Lacks.sign {c : Char} (h : Lacks ws ps) : Lacks ws (leaf (.sign c) :: ps) :=
  lacks_cons.mpr ⟨fun _ _ => rfl, h⟩

theorem Lacks.mono {vs : List String} (h : Lacks ws ps) (hsub : vs ⊆ ws) : Lacks vs ps :=
  fun w hw => h w (hsub hw)

/-- A text without some words shows none of them. -/
theorem lacks_tokens {t : String} (h : ∀ w ∈ ws, w ∉ words t) :
    Lacks ws ((tokens t).map leaf) := by
  intro w hw p hp
  obtain ⟨token, htoken, rfl⟩ := List.mem_map.mp hp
  cases token with
  | word v =>
    refine beq_eq_false_iff_ne.mpr ?_
    rintro rfl
    exact h v hw (mem_words_of_mem_tokens htoken)
  | sign | item => rfl

theorem Lacks.not_isWord (h : Lacks [w] ps) : ∀ p ∈ ps, (!isWord w p) = true := fun p hp => by
  rw [h w (List.mem_singleton_self w) p hp, Bool.not_false]

theorem before_of_lacks (h : Lacks [w] ps) : before w ps = ps := by
  have hwhole : (ps ++ []).takeWhile (!isWord w ·) = ps ++ [].takeWhile (!isWord w ·) :=
    List.takeWhile_append_of_pos h.not_isWord
  rwa [List.append_nil, List.takeWhile_nil, List.append_nil] at hwhole

theorem before_append (h : Lacks [w] front) :
    before w (front ++ leaf (.word w) :: rest) = front := by
  rw [before, List.takeWhile_append_of_pos h.not_isWord,
    List.takeWhile_cons_of_neg (by simp [isWord]), List.append_nil]

theorem after_append (h : Lacks [w] front) (rest : List (Part Token)) :
    after w (front ++ rest) = after w rest := by
  rw [after, List.dropWhile_append_of_pos h.not_isWord, after]

@[simp] theorem after_cons_self : after w (leaf (.word w) :: rest) = rest := by
  simp [after, isWord]

theorem after_of_lacks (h : Lacks [w] ps) : after w ps = [] := by
  have hnone := after_append h []
  rwa [List.append_nil] at hnone

/-! ## Queries -/

/-- The words of a clause that closes a query and limits its rows. -/
def limitWords : List String := ["LIMIT", "OFFSET"]

/-- What can stand behind a FROM: anything but a derived table whose rows are numbered or limited
behind it, or are those of an aggregate. -/
inductive IsNamed : List (Part Token) → Prop
  | leaf (t : Token) (rest : List (Part Token)) : IsNamed (leaf t :: rest)
  | derived (rows : List (Part Token)) {t : Token}
      (ht : t ∉ [.word "PAGING_T", .word "WHERE", .word "AGG_T"]) (rest : List (Part Token)) :
      IsNamed (parens rows :: .leaf t :: rest)

theorem IsNamed.append (h : IsNamed ps) (more : List (Part Token)) : IsNamed (ps ++ more) := by
  cases h with
  | leaf t rest => exact .leaf t _
  | derived rows ht rest => exact .derived rows ht _

/-- No condition on row numbers and no aggregate is read from what is named. -/
theorem IsNamed.read_eq (h : IsNamed (after "FROM" ps)) :
    skipped? ps = none ∧ lastNumber? ps = none ∧ aggregated ps = ps := by
  unfold skipped? lastNumber? derived? aggregated
  generalize after "FROM" ps = behind at h
  cases h with
  | leaf t rest => exact ⟨rfl, rfl, rfl⟩
  | derived rows ht rest =>
    rename_i t
    -- Only a word could be taken for a condition on the derived table or for its symbol.
    cases t with
    | sign c => exact ⟨rfl, rfl, rfl⟩
    | item => exact ⟨rfl, rfl, rfl⟩
    | word v =>
      simp only [List.mem_cons, Token.word.injEq, List.not_mem_nil, or_false, not_or] at ht
      obtain ⟨hpaging, hwhere, haggregate⟩ := ht
      refine ⟨?_, ?_, ?_⟩ <;> simp [hpaging, hwhere, haggregate]

/-- What a query reads when it has no bounds, with the clauses behind it. -/
def IsSource (ps : List (Part Token)) : Prop := IsNamed ps ∧ Lacks limitWords ps

theorem IsSource.append (h : IsSource ps) (hqs : Lacks limitWords qs) : IsSource (ps ++ qs) :=
  ⟨h.1.append qs, lacks_append.mpr ⟨h.2, hqs⟩⟩

/-- The beginning of a query up to its FROM, with a limit in front of the projection or without. -/
def IsOpening (top : Option Nat) (ps : List (Part Token)) : Prop :=
  ∃ head, ps = head ++ [leaf (.word "FROM")] ∧ Lacks ("FROM" :: limitWords) head ∧ top? head = top

namespace IsOpening

theorem lacks (h : IsOpening top ps) : Lacks limitWords ps := by
  obtain ⟨head, rfl, hhead, -⟩ := h
  exact lacks_append.mpr ⟨hhead.mono (List.subset_cons_self _ _), by decide⟩

theorem after_eq (h : IsOpening top ps) (rest : List (Part Token)) :
    after "FROM" (ps ++ rest) = rest := by
  obtain ⟨head, rfl, hhead, -⟩ := h
  rw [List.append_assoc, after_append (hhead.mono (by simp)), List.singleton_append,
    after_cons_self]

theorem top?_eq (h : IsOpening top ps) (rest : List (Part Token)) : top? (ps ++ rest) = top := by
  obtain ⟨head, rfl, hhead, rfl⟩ := h
  have hfrom : Lacks ["FROM"] head := hhead.mono (by simp)
  rw [List.append_assoc, List.singleton_append, top?, before_append hfrom, top?,
    before_of_lacks hfrom]

end IsOpening

/-- A query without bounds but for one in front of its projection. -/
def IsSelect (top : Option Nat) (ps : List (Part Token)) : Prop :=
  ∃ opening source, ps = opening ++ source ∧ IsOpening top opening ∧ IsSource source

/-- Whether a query states some bounds and is no aggregate of limited rows. -/
def States (b : RowBounds) (ps : List (Part Token)) : Prop :=
  rowBounds ps = b ∧ aggregated ps = ps

theorem limit_append (h : Lacks limitWords front) (rest : List (Part Token)) :
    limit (front ++ rest) = limit rest := by
  have hlimit : after "LIMIT" (front ++ rest) = after "LIMIT" rest :=
    after_append (h.mono (by simp [limitWords])) rest
  have hoffset : after "OFFSET" (front ++ rest) = after "OFFSET" rest :=
    after_append (h.mono (by simp [limitWords])) rest
  rw [limit, hlimit, hoffset, limit]

theorem limit_of_lacks (h : Lacks limitWords ps) : limit ps = (0, none) := by
  have hnone := limit_append h []
  rwa [List.append_nil] at hnone

namespace IsSelect

theorem lacks (h : IsSelect top ps) : Lacks limitWords ps := by
  obtain ⟨opening, source, rfl, hopening, -, hsource⟩ := h
  exact lacks_append.mpr ⟨hopening.lacks, hsource⟩

/-- A query goes on with anything that does not limit its rows. -/
theorem append (h : IsSelect top ps) {more : List (Part Token)} (hmore : Lacks limitWords more) :
    IsSelect top (ps ++ more) := by
  obtain ⟨opening, source, rfl, hopening, hsource⟩ := h
  exact ⟨opening, source ++ more, List.append_assoc _ _ _, hopening, hsource.append hmore⟩

/-- The bounds of a query are the one in front of its projection and those at its end. -/
theorem states_append (h : IsSelect top ps) (clause : List (Part Token)) :
    States ⟨0, none, (limit clause).1, top.or (limit clause).2⟩ (ps ++ clause) := by
  have hlimit := limit_append h.lacks clause
  obtain ⟨opening, source, rfl, hopening, hnamed, -⟩ := h
  rw [List.append_assoc] at hlimit ⊢
  -- The clause stands behind the source, so that the same source is found.
  have hbehind : IsNamed (after "FROM" (opening ++ (source ++ clause))) := by
    rw [hopening.after_eq]
    exact hnamed.append clause
  obtain ⟨hskipped, hlast, haggregated⟩ := hbehind.read_eq
  refine ⟨?_, haggregated⟩
  rw [rowBounds, hskipped, hlast, hlimit, hopening.top?_eq]
  rfl

/-- A query has no bounds at its end if nothing stands there. -/
theorem states (h : IsSelect top ps) : States ⟨0, none, 0, top⟩ ps := by
  have hall := h.states_append []
  rwa [List.append_nil, limit_of_lacks .nil, Option.or_none] at hall

end IsSelect

end Part

/-! ## Drafts -/

namespace Draft

open DialectSql.Part

variable {p p' : List (Part Token) → Prop} {a b : Draft} {d : Dialect} {T : String → Prop}
  {ws : List String}

/-- Drafts whose parts have a property, unless they fail. -/
def Has (p : List (Part Token) → Prop) (a : Draft) : Prop :=
  ∃ ps, Reads Piece.tokens a ps ∧ (a.failure = none → p ps)

namespace Has

theorem outline (h : Has p a) (hfailure : a.failure = none) : p (a.outline Piece.tokens) := by
  obtain ⟨ps, hreads, hps⟩ := h
  rw [hreads.outline_eq hfailure]
  exact hps hfailure

theorem mono (h : Has p a) (himp : ∀ ps, p ps → p' ps) : Has p' a := by
  obtain ⟨ps, hreads, hps⟩ := h
  exact ⟨ps, hreads, fun hfailure => himp ps (hps hfailure)⟩

theorem any (h : Has p a) : Has (fun _ => True) a := h.mono fun _ _ => trivial

theorem and (h : Has p a) (h' : Has p' a) : Has (fun ps => p ps ∧ p' ps) a := by
  obtain ⟨ps, hreads, hps⟩ := h
  refine ⟨ps, hreads, fun hfailure => ⟨hps hfailure, ?_⟩⟩
  rw [← hreads.outline_eq hfailure]
  exact h'.outline hfailure

theorem append {r : List (Part Token) → Prop} (ha : Has p a) (hb : Has p' b)
    (hr : ∀ ps qs, p ps → p' qs → r (ps ++ qs)) : Has r (a ++ b) := by
  obtain ⟨ps, hreads, hps⟩ := ha
  obtain ⟨qs, hreads', hqs⟩ := hb
  refine ⟨ps ++ qs, hreads.append hreads', fun hfailure => ?_⟩
  obtain ⟨hfirst, hsecond⟩ := failure_append_eq_none hfailure
  exact hr ps qs (hps hfirst) (hqs hsecond)

theorem append_eq {ps qs : List (Part Token)} (ha : Has (· = ps) a) (hb : Has (· = qs) b) :
    Has (· = ps ++ qs) (a ++ b) :=
  ha.append hb fun _ _ hps hqs => by rw [hps, hqs]

theorem parens (h : Has p a) : Has (fun ps => ∃ rows, ps = [.parens rows] ∧ p rows) a.parens := by
  obtain ⟨ps, hreads, hps⟩ := h
  refine ⟨_, hreads.parens, fun hfailure => ⟨ps, rfl, hps ?_⟩⟩
  rwa [failure_parens] at hfailure

theorem text (t : String) : Has (· = (tokens t).map .leaf) (.text t) :=
  ⟨_, .text t, fun _ => rfl⟩

/-- A text whose tokens are known. -/
theorem text_of {t : String} (ts : List Token) (h : tokens t = ts) :
    Has (· = ts.map .leaf) (.text t) := h ▸ text t

theorem empty : Has (· = []) .empty := ⟨[], .empty, fun _ => rfl⟩

theorem quoted (name : String) : Has (· = [.leaf .item]) (.quoted name) :=
  ⟨_, .quoted name, fun _ => rfl⟩

end Has

/-- Every composed draft has parts. -/
theorem Composed.has_parts (h : a.Composed d T) : Has (fun _ => True) a := by
  obtain ⟨ps, hreads⟩ := h.exists_reads Piece.tokens
  exact ⟨ps, hreads, fun _ => trivial⟩

theorem has_lacks_text {t : String} (h : ∀ w ∈ ws, w ∉ words t) : Has (Lacks ws) (.text t) :=
  (Has.text t).mono fun _ hps => hps ▸ lacks_tokens h

theorem has_lacks_empty : Has (Lacks ws) .empty := Has.empty.mono fun _ hps => hps ▸ .nil

theorem has_lacks_item {a : Draft} (h : Has (· = [.leaf .item]) a) : Has (Lacks ws) a := by
  refine h.mono ?_
  rintro _ rfl w _ p hp
  rw [List.mem_singleton.mp hp]
  rfl

theorem has_lacks_parens (h : Has p a) : Has (Lacks ws) a.parens := by
  refine h.parens.mono ?_
  rintro _ ⟨rows, rfl, -⟩ w _ p hp
  rw [List.mem_singleton.mp hp]
  rfl

theorem has_lacks_append (ha : Has (Lacks ws) a) (hb : Has (Lacks ws) b) :
    Has (Lacks ws) (a ++ b) :=
  ha.append hb fun _ _ hps hqs => lacks_append.mpr ⟨hps, hqs⟩

/-- A derived table with its symbol. -/
theorem has_derived {symbol w : String} (ha : Has p a)
    (hsymbol : tokens (" " ++ symbol) = [.word w]) :
    Has (fun ps => ∃ rows, ps = [.parens rows, .leaf (.word w)] ∧ p rows)
      (a.parens ++ .text (" " ++ symbol)) := by
  refine ha.parens.append (.text_of _ hsymbol) ?_
  rintro _ _ ⟨rows, rfl, hrows⟩ rfl
  exact ⟨rows, rfl, hrows⟩

theorem has_from : Has (· = [.leaf (.word "FROM")]) (.text " FROM ") := .text_of _ rfl

/-- The beginning of a query of all columns. -/
theorem has_star : Has (IsOpening none) (.text "SELECT * FROM ") :=
  (Has.text_of [.word "SELECT", .sign '*', .word "FROM"] rfl).mono fun _ hps =>
    ⟨[.leaf (.word "SELECT"), .leaf (.sign '*')], hps, by decide, rfl⟩

/-- A composed draft lacks the words that its texts lack. -/
theorem Composed.has_lacks (hT : ∀ t, T t → ∀ w ∈ ws, w ∉ words t) (h : a.Composed d T) :
    Has (Lacks ws) a := by
  induction h with
  | empty => exact Has.empty.mono fun _ hps => hps ▸ Lacks.nil
  | text ht => exact has_lacks_text (hT _ ht)
  | quoted name => exact has_lacks_item (.quoted name)
  | bare name => exact has_lacks_item ⟨_, .bare name, fun _ => rfl⟩
  | value _ => exact has_lacks_item ⟨_, .value _, fun _ => rfl⟩
  | missing _ => exact ⟨[], .fail _ _, fun _ => .nil⟩
  | append _ _ iha ihb => exact has_lacks_append iha ihb
  | parens _ ih => exact has_lacks_parens ih

end Draft

open DialectSql.Part in
/-- A phrase outside of whose parentheses no word frames a query has none of these words there. -/
theorem Phrase.has_lacks {N B T : String → Prop} {opens closes : Bool} {d : Draft}
    {ws : List String} (hws : ws ⊆ frameWords) (h : Phrase N B T opens closes d) :
    d.Has fun ps => (∀ t, T t → isInterior t = true) → Lacks ws ps := by
  have hframe : ∀ {t : String}, frameOf t.toList = [] → ∀ w ∈ ws, w ∉ words t := by
    intro t ht w hw hmem
    exact List.filter_eq_nil_iff.mp ht w hmem (List.contains_iff_mem.mpr (hws hw))
  have hlacks : ∀ {a : Draft} {T : String → Prop}, a.Has (Lacks ws) →
      a.Has fun ps => (∀ t, T t → isInterior t = true) → Lacks ws ps :=
    fun ha => ha.mono fun _ hps _ => hps
  induction h with
  | @text T t hplain ht =>
    refine (Draft.Has.text t).mono ?_
    rintro _ rfl hT
    exact lacks_tokens (hframe (frameOf_of_isInterior (hT t ht)))
  | mark hplain hinterior => exact hlacks (Draft.has_lacks_text (hframe (frameOf_mark hinterior)))
  | quoted hname => exact hlacks (Draft.has_lacks_item (.quoted _))
  | bare hname => exact hlacks (Draft.has_lacks_item ⟨_, .bare _, fun _ => rfl⟩)
  | value v => exact hlacks (Draft.has_lacks_item ⟨_, .value v, fun _ => rfl⟩)
  | fail e => exact ⟨[], .fail e [], fun _ _ => .nil⟩
  | noArguments => exact hlacks (Draft.has_lacks_parens Draft.Has.empty)
  -- What stands between parentheses is of another class and may have any words.
  | parens _ ih => exact hlacks (Draft.has_lacks_parens ih)
  | append _ _ _ iha ihb =>
    exact iha.append ihb fun _ _ hps hqs hT => lacks_append.mpr ⟨hps hT, hqs hT⟩
  | weaken _ _ _ ih => exact ih

/-! ## Heads -/

namespace Part

variable {w : String} {front ps : List (Part Token)}

/-- A limit in front of a projection. -/
def topParts : Option UInt64 → List (Part Token)
  | some count => [leaf (.word "TOP"), leaf (.word (natural count.toNat))]
  | none => []

/-- A number is none of the words by which bounds are found. -/
theorem natural_notMem (n : Nat) : natural n ∉ "FROM" :: limitWords := by
  have hdigits : ∀ w ∈ "FROM" :: limitWords, w.toList.all (!·.isDigit) = true := by decide
  obtain ⟨c, hc, hdigit⟩ := exists_isDigit_natural n
  intro hmem
  simpa [hdigit] using List.all_eq_true.mp (hdigits _ hmem) c hc

theorem Lacks.number (n : Nat) (h : Lacks limitWords ps) :
    Lacks limitWords (leaf (.word (natural n)) :: ps) :=
  .word (fun hmem => natural_notMem n (List.mem_cons_of_mem _ hmem)) h

theorem lacks_topParts (top : Option UInt64) : Lacks ("FROM" :: limitWords) (topParts top) := by
  cases top with
  | none => exact .nil
  | some count => exact .word (by decide) (.word (natural_notMem _) .nil)

/-- There is no limit without its keyword. -/
theorem top?_of_lacks (h : Lacks ["TOP", "FROM"] ps) : top? ps = none := by
  rw [top?, before_of_lacks (h.mono (by simp)), after_of_lacks (h.mono (by simp))]

/-- The limit in front of a projection is read where it stands. -/
theorem top?_append (top : Option UInt64) (hfront : Lacks ["TOP", "FROM"] front)
    (hps : Lacks ["TOP", "FROM"] ps) :
    top? (front ++ topParts top ++ ps) = top.map (·.toNat) := by
  cases top with
  | none =>
    rw [topParts, List.append_nil]
    exact top?_of_lacks (lacks_append.mpr ⟨hfront, hps⟩)
  | some count =>
    have hfrom : Lacks ["FROM"] (front ++ topParts (some count) ++ ps) :=
      lacks_append.mpr ⟨lacks_append.mpr ⟨hfront.mono (by simp),
        (lacks_topParts (some count)).mono (by simp)⟩, hps.mono (by simp)⟩
    rw [top?, before_of_lacks hfrom, List.append_assoc, after_append (hfront.mono (by simp)),
      topParts, List.cons_append, after_cons_self]
    exact congrArg some (number_natural _)

end Part

open Draft DialectSql.Part

variable {s : Setting}

/-- The words of clauses do not stand in operands. -/
theorem Text.not_mem_words_of_isOperand {ws : List String} (hws : ws ⊆ clauseWords) {t : String}
    (h : isOperand t = true) : ∀ w ∈ ws, w ∉ words t := fun w hw hmem => by
  simpa [hws hw] using List.all_eq_true.mp h w hmem

/-- The words that do not stand between SELECT and FROM, but for a limit. -/
def Part.headWords : List String := "TOP" :: "FROM" :: limitWords

namespace Query

theorem has_topDraft (top : Option UInt64) :
    (match top with
      | some count => .text ("TOP " ++ natural count.toNat ++ " ")
      | none => .empty : Draft).Has (· = topParts top) := by
  cases top with
  | none => exact .empty
  | some count =>
    refine .text_of [.word "TOP", .word (natural count.toNat)] ?_
    rw [tokens_append_of_opensApart rfl, tokens_append_of_closesApart rfl, tokens_natural]
    rfl

variable (q : Query)

theorem has_headDraft (top : Option UInt64) :
    (q.headDraft top).Has fun ps =>
      ∃ front, Lacks headWords front ∧ ps = front ++ topParts top := by
  have hselect : (Draft.text "SELECT ").Has (Lacks headWords) := has_lacks_text (by decide)
  have hdistinct : (if q.distinct then .text "DISTINCT " else .empty : Draft).Has
      (Lacks headWords) := by
    split
    · exact has_lacks_text (by decide)
    · exact has_lacks_empty
  exact (has_lacks_append hselect hdistinct).append (has_topDraft top)
    fun front _ hfront hps => ⟨front, hfront, hps ▸ rfl⟩

theorem has_projectionDraft : (q.projectionDraft s).Has (Lacks headWords) := by
  -- The texts of a projection are those of operands and the keyword in front of a name.
  have hcomposed : (q.projectionDraft s).Composed s.dialect
      fun t => ∀ w ∈ headWords, w ∉ words t :=
    .ite (.text (by decide)) (.items (fun p _ => p.composed_draft
      (fun t ht => not_mem_words_of_isOperand (by decide) ht) (by decide) s) (by decide))
  exact hcomposed.has_lacks fun _ => id

/-- What stands in front of a FROM. -/
theorem has_head (top : Option UInt64) : (q.headDraft top ++ q.projectionDraft s).Has
    fun ps => Lacks ("FROM" :: limitWords) ps ∧ top? ps = top.map (·.toNat) := by
  refine (q.has_headDraft top).append q.has_projectionDraft ?_
  rintro _ ps ⟨front, hfront, rfl⟩ hps
  refine ⟨?_, top?_append top (hfront.mono (by decide)) (hps.mono (by decide))⟩
  exact lacks_append.mpr ⟨lacks_append.mpr ⟨hfront.mono (by decide), lacks_topParts top⟩,
    hps.mono (by decide)⟩

end Query

/-! ## Clauses -/

/-- Operands have no word of a clause. -/
theorem OperandDraft.has_lacks {d : Dialect} {a : Draft} {ws : List String}
    (hws : ws ⊆ clauseWords) (h : OperandDraft d a) : a.Has (Lacks ws) :=
  Composed.has_lacks (fun _ => not_mem_words_of_isOperand hws) h

/-- A comma-separated list of operands. -/
theorem OperandDraft.has_lacks_items {d : Dialect} {α : Type} {f : α → Draft} {xs : List α}
    (h : ∀ x ∈ xs, OperandDraft d (f x)) : (Draft.list (xs.map f)).Has (Lacks limitWords) :=
  OperandDraft.has_lacks (by decide) (.items h rfl)

theorem has_orderDraft (s : Setting) (orders : List Order) :
    (orderDraft s orders).Has (Lacks limitWords) := by
  unfold orderDraft
  split
  · exact has_lacks_empty
  · exact has_lacks_append (has_lacks_text (by decide))
      (OperandDraft.has_lacks_items fun o _ => o.composed_draft s)

/-- Clauses that read no numbered rows and limit nothing outside of parentheses. -/
structure Clauses.Unlimited (c : Clauses) : Prop where
  /-- What the query reads. -/
  source : ∀ s, (c.source s).Has IsSource
  /-- The condition on the rows that are read. -/
  filter : ∀ f ∈ c.filter, ∀ s, (f s).Has (Lacks limitWords)
  /-- The condition on groups. -/
  having : ∀ f ∈ c.having, ∀ s, (f s).Has (Lacks limitWords)

namespace Query

variable {q : Query} {c : Clauses} (hc : c.Unlimited)
include hc

theorem has_whereDraft (s : Setting) :
    (whereDraft (c.filter.map (· s)) none).Has (Lacks limitWords) := by
  cases hfilter : c.filter with
  | none => exact has_lacks_empty
  | some f => exact has_lacks_append (has_lacks_text (by decide)) (hc.filter f hfilter s)

/-- FROM and what stands behind it, but for orders. -/
theorem has_bodyDraft (s : Setting) : (q.bodyDraft c none s).Has fun ps =>
    ∃ source, ps = .leaf (.word "FROM") :: source ∧ IsSource source := by
  have hclauses : ∀ {a : Draft}, a.Has (Lacks limitWords) →
      (.text " FROM " ++ (c.source s ++ a) : Draft).Has fun ps =>
        ∃ source, ps = .leaf (.word "FROM") :: source ∧ IsSource source := by
    intro a ha
    have hsource : (c.source s ++ a).Has IsSource :=
      (hc.source s).append ha fun _ _ hps hqs => hps.append hqs
    exact has_from.append hsource fun _ source hps hsource => ⟨source, hps ▸ rfl, hsource⟩
  rw [bodyDraft, Draft.append_assoc, Draft.append_assoc, Draft.append_assoc]
  refine hclauses (has_lacks_append (has_whereDraft hc s) (has_lacks_append ?_ ?_))
  · split
    · exact has_lacks_empty
    · exact has_lacks_append (has_lacks_text (by decide))
        (OperandDraft.has_lacks_items fun e _ => e.composed_draft s)
  · split
    · next f hf => exact has_lacks_append (has_lacks_text (by decide)) (hc.having f hf s)
    · exact has_lacks_empty

/-- A query without limits but for one in front of its projection. -/
theorem has_unpagedDraft (top : Option UInt64) (s : Setting) :
    (q.unpagedDraft c top none s).Has (IsSelect (top.map (·.toNat))) := by
  have hselect : (q.headDraft top ++ q.projectionDraft s ++ q.bodyDraft c none s).Has
      (IsSelect (top.map (·.toNat))) := by
    refine (q.has_head top).append (has_bodyDraft hc s) ?_
    rintro head _ ⟨hhead, htop⟩ ⟨source, rfl, hsource⟩
    exact ⟨_, source, List.append_cons _ _ _, ⟨head, rfl, hhead, htop⟩, hsource⟩
  exact hselect.append (has_orderDraft s q.orders) fun _ _ hps hqs => hps.append hqs

end Query

/-! ## Sources -/

/-- What is named goes on with anything. -/
theorem Draft.Has.named_append {a b : Draft} (ha : a.Has IsNamed) (hb : b.Has fun _ => True) :
    (a ++ b).Has IsNamed :=
  ha.append hb fun _ qs hps _ => hps.append qs

theorem Table.has_isNamed (t : Table) : t.draft.Has IsNamed := by
  have hname : (Draft.quoted t.name).Has IsNamed :=
    (Has.quoted t.name).mono fun _ hps => hps ▸ .leaf _ _
  unfold draft
  split
  · exact (hname.named_append (Has.text " ").any).named_append (Has.quoted _).any
  · exact hname

/-- A derived table stands in front of its symbol. -/
theorem has_isNamed_derivedDraft {a : Draft} (ha : a.Has fun _ => True) (symbol : String) :
    (derivedDraft a symbol).Has IsNamed := by
  have hblank : (Draft.text " ").Has (· = []) := .text_of _ rfl
  refine (ha.parens.append hblank (r := fun ps => ∃ rows, ps = [.parens rows]) ?_).append
    (.quoted symbol) ?_
  · rintro _ _ ⟨rows, rfl, -⟩ rfl
    exact ⟨rows, rfl⟩
  · rintro _ _ ⟨rows, rfl⟩ rfl
    exact .derived rows (by simp) []

/-- What a query reads begins with a table or with a derived table in front of its symbol. -/
theorem Source.has_isNamed : ∀ (r : Source) (s : Setting), (r.draft s).Has IsNamed
  | .single (.table t), _ => t.has_isNamed
  | .single (.select query _), s =>
    has_isNamed_derivedDraft (query.composed_draft s.nested).has_parts _
  | .single (.set set _), s => has_isNamed_derivedDraft (set.composed_draft s.nested).has_parts _
  | .joined kind left right on, s => by
    -- A join begins with its left side, whatever is joined to that.
    have hr : AnyDraft s.dialect (right.draft s) := right.composed_draft s
    have hright : (if right.isJoined then (right.draft s).parens else right.draft s).Has
        fun _ => True := Composed.has_parts (.ite (.parens hr) hr)
    have hleft := (left.has_isNamed s).named_append (Has.text (" " ++ kind.symbol ++ " ")).any
    rw [Source.draft]
    exact ((hleft.named_append hright).named_append (Has.text " ON ").any).named_append
      (on.composed_draft s).has_parts

/-! ## Statements -/

section Statements

variable {N B : String → Prop} {opens closes : Bool} {d : Draft}

/-- Sources and conditions limit nothing outside of parentheses. -/
theorem Phrase.has_lacks_limitWords (h : InteriorPhrase N B opens closes d) :
    d.Has (Lacks limitWords) :=
  (h.has_lacks (by decide)).mono fun _ hps => hps fun _ => id

theorem Criteria.has_lacks (s : Setting) (c : Criteria) : (c.draft s).Has (Lacks limitWords) := by
  rcases c.phrase_draft (B := fun _ => True) admitsSymbols_true s fun _ _ => trivial with h | h
  · exact h ▸ has_lacks_empty
  · exact h.has_lacks_limitWords

theorem Criteria.has_lacks_draftOption (c? : Option Criteria) :
    ∀ f ∈ Criteria.draftOption c?, ∀ s, (f s).Has (Lacks limitWords) := by
  cases c? with
  | none => exact fun _ hf => absurd hf (by simp [draftOption])
  | some c =>
    rintro f ⟨⟩ s
    exact c.has_lacks s

theorem Source.has_isSource (r : Source) (s : Setting) : (r.draft s).Has IsSource :=
  (r.has_isNamed s).and (r.phrase_draft (B := fun _ => True) admitsSymbols_true s
    fun _ _ => trivial).has_lacks_limitWords

/-- A query that is more than the set operation it reads is written from clauses that limit
nothing. -/
theorem Query.exists_unlimited {q : Query} (h : q.isSetWrapper = false) (s : Setting) :
    ∃ c : Clauses, c.Unlimited ∧ q.draft s = q.clausesDraft c s := by
  obtain ⟨source, criteria, selection, distinct, orders, skip, take, aggregation, groupBy,
    having⟩ := q
  have hclauses : Clauses.Unlimited
      { source := fun s => source.draft s
        filter := Criteria.draftOption criteria
        having := Criteria.draftOption having } :=
    ⟨source.has_isSource, Criteria.has_lacks_draftOption criteria,
      Criteria.has_lacks_draftOption having⟩
  refine ⟨_, hclauses, ?_⟩
  -- Only a query of a set operation has a draft of its own, and it adds something to that.
  rcases source with (_ | _ | _) | _
  · simp [draft]
  · simp [draft]
  · rw [draft]
    exact if_neg (ne_true_of_eq_false h)
  · simp [draft]

end Statements

end DialectSql
