import DialectSql.Proofs.Requalification
import DialectSql.Proofs.Width.Item

/-!
# Mentions

A text mentions columns and sources by their names. The references that it is made of are read back
from a draft: a name is a column, two names with a point between them are a column with its
qualifier, and a name with a point and a star behind it is a wildcard. A star by itself mentions
nothing.

## Main definitions

* `Sign`, `Piece.signs`, `Part.signsIn` — what a reader of references makes of a draft
* `Sign.references`, `Sign.column` — the references that are read, and the signs of a column
* `Sign.Spells` — signs from which some references are read, whatever stands behind them
* `Draft.Mentions`, `Draft.Mixed` — drafts from which some references are read, and those that are
  more than a column

## Main results

* `Draft.Mentions.append`, `Draft.Mentions.separated`, … — drafts are read part by part
* `Field.mentions_draft` — a column mentions itself
-/

namespace DialectSql

open Text

/-! ## Signs -/

/-- What a reader of references makes of a text. -/
inductive Sign
  /-- An identifier of the statement. -/
  | name (name : String)
  /-- Anything else. -/
  | glyph (g : Glyph)
  deriving DecidableEq

/-- The signs of a piece that is no parenthesis. -/
def Piece.signs : Piece → List Sign
  | text t => (Text.glyphs t).map .glyph
  | opening | closing => []
  | quoted name | bare name => [.name name]
  | value _ => [.glyph .other]

namespace Part

mutual

/-- The signs of a part, with one for each of its parentheses. -/
def signs : Part Sign → List Sign
  | leaf sign => [sign]
  | parens inner => [.glyph .other] ++ signsIn inner ++ [.glyph .other]

/-- The signs of some parts. -/
def signsIn : List (Part Sign) → List Sign
  | [] => []
  | p :: ps => p.signs ++ signsIn ps

end

@[simp] theorem signsIn_append (ps qs : List (Part Sign)) :
    signsIn (ps ++ qs) = signsIn ps ++ signsIn qs := by
  induction ps with
  | nil => rfl
  | cons p ps ih => rw [List.cons_append, signsIn, ih, signsIn, List.append_assoc]

@[simp] theorem signsIn_map_leaf (signs : List Sign) : signsIn (signs.map .leaf) = signs := by
  induction signs with
  | nil => rfl
  | cons sign signs ih => rw [List.map_cons, signsIn, ih, Part.signs, List.singleton_append]

end Part

namespace Sign

/-- The references that some signs without aliases are. -/
def references : List Sign → List Reference
  | name source :: glyph .dot :: name column :: signs =>
    .field ⟨column, some source⟩ :: references signs
  | name source :: glyph .dot :: glyph .star :: signs => .wildcard (some source) :: references signs
  | name column :: signs => .field ⟨column, none⟩ :: references signs
  | glyph _ :: signs => references signs
  | [] => []

/-- The signs of a column. -/
def column (f : Field) : List Sign :=
  match f.source with
  | some source => [name source, glyph .dot, name f.name]
  | none => [name f.name]

/-- Whether some signs can be those of a column. -/
def isColumn (signs : List Sign) : Bool :=
  signs.all fun
    | name _ => true
    | glyph g => g == .dot

theorem isColumn_column (f : Field) : isColumn (column f) = true := by
  obtain ⟨name, _ | source⟩ := f <;> rfl

theorem column_injective : Function.Injective column := by
  rintro ⟨name, _ | source⟩ ⟨name', _ | source'⟩ h <;> simp_all [column]

theorem isColumn_append (signs signs' : List Sign) :
    isColumn (signs ++ signs') = (isColumn signs && isColumn signs') := List.all_append

/-- Whether a sign begins a clause that can stand behind an expression or around one. -/
def beginsClause : Sign → Bool
  | glyph (.word w) => ["FROM", "ORDER"].contains w
  | _ => false

/-- Signs from which some references are read, whatever stands behind them. -/
structure Spells (signs : List Sign) (references : List Reference) : Prop where
  /-- They do not go on from what is in front of them. -/
  head : signs.head? ≠ some (glyph .dot)
  /-- No clause begins. -/
  inside : ∀ sign ∈ signs, sign.beginsClause = false
  /-- The references. -/
  references_append : ∀ rest : List Sign, rest.head? ≠ some (glyph .dot) →
    Sign.references (signs ++ rest) = references ++ Sign.references rest

namespace Spells

variable {signs signs' : List Sign} {refs refs' : List Reference}

theorem references_eq (h : Spells signs refs) : references signs = refs := by
  have hwhole := h.references_append [] (by simp)
  rwa [List.append_nil, references, List.append_nil] at hwhole

theorem nil : Spells [] [] where
  head := by simp
  inside := by simp
  references_append _ _ := rfl

theorem append (h : Spells signs refs) (h' : Spells signs' refs') :
    Spells (signs ++ signs') (refs ++ refs') where
  head := by
    cases signs with
    | nil => exact h'.head
    | cons sign signs => exact h.head
  inside := List.forall_mem_append.mpr ⟨h.inside, h'.inside⟩
  references_append rest hrest := by
    -- Behind the first signs stand the second ones, or if there are none what is behind them.
    have hbehind : (signs' ++ rest).head? ≠ some (glyph .dot) := by
      cases signs' with
      | nil => exact hrest
      | cons sign signs' => exact h'.head
    rw [List.append_assoc, h.references_append _ hbehind, h'.references_append _ hrest,
      List.append_assoc]

/-- Without names there are no references. -/
theorem glyphs {gs : List Glyph} (hhead : gs.head? ≠ some .dot)
    (hinside : ∀ g ∈ gs, (glyph g).beginsClause = false) : Spells (gs.map .glyph) [] where
  head := by
    cases gs with
    | nil => simp
    | cons g gs => simpa using hhead
  inside := List.forall_mem_map.mpr hinside
  references_append rest _ := by
    clear hhead hinside
    induction gs with
    | nil => rfl
    | cons g gs ih => exact ih

/-- A sign that means nothing. -/
theorem other : Spells [glyph .other] [] :=
  ⟨by simp, by simp [beginsClause], fun _ _ => rfl⟩

/-- A name is a column unless it is a qualifier. -/
theorem references_name {signs : List Sign} (h : signs.head? ≠ some (glyph .dot)) (n : String) :
    references (name n :: signs) = .field ⟨n, none⟩ :: references signs := by
  rcases signs with _ | ⟨_ | g, signs⟩
  · rfl
  · rfl
  · -- The other two ways of going on from a name need a point.
    rw [references.eq_3]
    · rintro column signs' ⟨⟩
      exact h rfl
    · rintro signs' ⟨⟩
      exact h rfl

theorem column (f : Field) : Spells (column f) [.field f] := by
  obtain ⟨n, source?⟩ := f
  cases source? with
  | none => exact ⟨by simp [Sign.column], by simp [Sign.column, beginsClause],
      fun rest hrest => references_name hrest n⟩
  | some source => exact ⟨by simp [Sign.column], by simp [Sign.column, beginsClause],
      fun rest _ => rfl⟩

theorem wildcard (source : String) :
    Spells [name source, glyph .dot, glyph .star] [.wildcard (some source)] :=
  ⟨by simp, by simp [beginsClause], fun _ _ => rfl⟩

end Spells

end Sign

/-! ## Drafts -/

/-- Whether a text has no names and neither goes on from a name nor begins a clause. -/
def Text.isFiller (t : String) : Bool :=
  (glyphs t).head?.any (· != .dot) && (glyphs t).all fun g => !(Sign.glyph g).beginsClause

namespace Draft

variable {a b : Draft} {refs refs' : List Reference}

/-- The signs of a draft. -/
def signs (a : Draft) : List Sign := Part.signsIn (a.outline Piece.signs)

/-- What a draft is read as has its signs. -/
theorem Reads.signs_eq {parts : List (Part Sign)} (h : Reads Piece.signs a parts)
    (hsuccess : a.failure = none) : a.signs = Part.signsIn parts := by
  rw [signs, h.outline_eq hsuccess]

/-- Drafts from which some references are read, unless they fail. -/
def Mentions (refs : List Reference) (a : Draft) : Prop :=
  a.failure = none → ∃ parts, Reads Piece.signs a parts ∧ Sign.Spells (Part.signsIn parts) refs

/-- Drafts of which the same is true, and that are more than a column. -/
def Mixed (refs : List Reference) (a : Draft) : Prop :=
  a.failure = none → ∃ parts, Reads Piece.signs a parts ∧ Sign.Spells (Part.signsIn parts) refs ∧
    Sign.isColumn (Part.signsIn parts) = false

theorem Mixed.mentions (h : Mixed refs a) : Mentions refs a := fun hsuccess => by
  obtain ⟨parts, hreads, hspells, -⟩ := h hsuccess
  exact ⟨parts, hreads, hspells⟩

theorem Mixed.isColumn_signs (h : Mixed refs a) (hsuccess : a.failure = none) :
    Sign.isColumn a.signs = false := by
  obtain ⟨parts, hreads, -, hmixed⟩ := h hsuccess
  rw [hreads.signs_eq hsuccess, hmixed]

/-- A draft that is more than a column, whether or not it might have been one. -/
theorem Mixed.mentions_and {p : Prop} (h : Mixed refs a) : Mentions refs a ∧ (p → Mixed refs a) :=
  ⟨h.mentions, fun _ => h⟩

namespace Mentions

theorem empty : Mentions [] .empty := fun _ => ⟨[], .empty, .nil⟩

theorem append (ha : Mentions refs a) (hb : Mentions refs' b) : Mentions (refs ++ refs') (a ++ b) :=
  fun hsuccess => by
    obtain ⟨hfirst, hsecond⟩ := failure_append_eq_none hsuccess
    obtain ⟨ps, hps, hspells⟩ := ha hfirst
    obtain ⟨qs, hqs, hspells'⟩ := hb hsecond
    exact ⟨ps ++ qs, hps.append hqs, by rw [Part.signsIn_append]; exact hspells.append hspells'⟩

end Mentions

namespace Mixed

/-- What stands behind something that is more than a column does not make it one. -/
theorem append (ha : Mixed refs a) (hb : Mentions refs' b) : Mixed (refs ++ refs') (a ++ b) :=
  fun hsuccess => by
    obtain ⟨hfirst, hsecond⟩ := failure_append_eq_none hsuccess
    obtain ⟨ps, hps, hspells, hmixed⟩ := ha hfirst
    obtain ⟨qs, hqs, hspells'⟩ := hb hsecond
    refine ⟨ps ++ qs, hps.append hqs, ?_, ?_⟩ <;> rw [Part.signsIn_append]
    · exact hspells.append hspells'
    · rw [Sign.isColumn_append, hmixed, Bool.false_and]

/-- What stands in front of it does not either. -/
theorem behind (ha : Mentions refs a) (hb : Mixed refs' b) : Mixed (refs ++ refs') (a ++ b) :=
  fun hsuccess => by
    obtain ⟨hfirst, hsecond⟩ := failure_append_eq_none hsuccess
    obtain ⟨ps, hps, hspells⟩ := ha hfirst
    obtain ⟨qs, hqs, hspells', hmixed⟩ := hb hsecond
    refine ⟨ps ++ qs, hps.append hqs, ?_, ?_⟩ <;> rw [Part.signsIn_append]
    · exact hspells.append hspells'
    · rw [Sign.isColumn_append, hmixed, Bool.and_false]

theorem text {t : String} (ht : isFiller t = true) : Mixed [] (.text t) := by
  rw [isFiller, Bool.and_eq_true, Option.any_eq_true] at ht
  obtain ⟨⟨g, hhead, hdot⟩, hinside⟩ := ht
  refine fun _ => ⟨_, .text t, ?_, ?_⟩ <;>
    rw [Part.signsIn_map_leaf, Piece.signs]
  · refine .glyphs (fun h => ?_) fun g hg => by simpa using List.all_eq_true.mp hinside g hg
    rw [hhead] at h
    cases h
    simp at hdot
  · obtain ⟨rest, hrest⟩ := List.head?_eq_some_iff.mp hhead
    rw [hrest]
    simpa [Sign.isColumn] using fun h => absurd h (by simpa using hdot)

theorem fail (refs : List Reference) (e : Error) : Mixed refs (.fail e) := fun h => by cases h

theorem constant (v : Value) : Mixed [] (.constant v) := by
  unfold Draft.constant
  split
  · exact text rfl
  · exact fun _ => ⟨_, .value v, .other, rfl⟩

end Mixed

namespace Mentions

/-- A text in front of a draft. -/
theorem lead {t : String} (ht : isFiller t = true) (ha : Mentions refs a) :
    Mixed refs (.text t ++ a) :=
  (Mixed.text ht).append ha

/-- A text behind a draft. -/
theorem followed {t : String} (ha : Mentions refs a) (ht : isFiller t = true) :
    Mixed refs (a ++ .text t) := by
  have hall := Mixed.behind ha (.text ht)
  rwa [List.append_nil] at hall

/-- A text between two drafts. -/
theorem separated {t : String} (ha : Mentions refs a) (ht : isFiller t = true)
    (hb : Mentions refs' b) : Mixed (refs ++ refs') (a ++ .text t ++ b) :=
  (ha.followed ht).append hb

/-- A draft between parentheses. -/
theorem parens (ha : Mentions refs a) : Mixed refs a.parens := fun hsuccess => by
  rw [failure_parens] at hsuccess
  obtain ⟨parts, hreads, hspells⟩ := ha hsuccess
  refine ⟨_, hreads.parens, ?_, ?_⟩ <;>
    simp only [Part.signsIn, Part.signs, List.append_nil]
  · have hall := (Sign.Spells.other.append hspells).append .other
    rwa [List.nil_append, List.append_nil] at hall
  · simp [Sign.isColumn]

/-- A function call. -/
theorem call {name : String} (hname : isFiller name = true) (ha : Mentions refs a) :
    Mixed refs (.text name ++ a.parens) :=
  ha.parens.mentions.lead hname

/-- Drafts with a text between them. -/
theorem joinWith {separator : String} (ht : isFiller separator = true) {ds : List Draft}
    {rs : List (List Reference)} (h : List.Forall₂ Mentions rs ds) :
    Mentions rs.flatten (.joinWith separator ds) := by
  induction h with
  | nil => exact empty
  | @cons refs a rs ds ha hall ih =>
    cases hall with
    | nil => simpa [Draft.joinWith] using ha
    | cons hb hall => exact (ha.separated ht ih).mentions

/-- A list of items. -/
theorem items {α : Type} {f : α → Draft} {refs : α → List Reference} {xs : List α}
    (h : ∀ x ∈ xs, Mentions (refs x) (f x)) : Mentions (xs.flatMap refs) (.list (xs.map f)) := by
  rw [List.flatMap_def]
  refine .joinWith rfl (List.forall₂_map_left_iff.mpr (List.forall₂_map_right_iff.mpr ?_))
  exact List.forall₂_same.mpr h

end Mentions

/-- Operands that a dialect puts together. -/
theorem mentions_concatenation (dialect : Dialect) {ds : List Draft} {rs : List (List Reference)}
    (h : List.Forall₂ Mentions rs ds) : Mentions rs.flatten (.concatenation dialect ds) := by
  have hpairwise : Mentions rs.flatten (concatenation.pairwise ds) := by
    induction h with
    | nil => exact (Mixed.text rfl).mentions
    | @cons refs a rs ds ha hall ih =>
      cases hall with
      | nil => simpa [concatenation.pairwise] using ha
      | cons hb hall => exact ((ha.separated rfl ih).mentions.call rfl).mentions
  cases dialect with
  | sqlServer | oledb => exact .joinWith rfl h
  | mySql | postgreSql => exact ((Mentions.joinWith rfl h).call rfl).mentions
  | sqlite | other => exact .joinWith rfl h
  | oracle => exact hpairwise

end Draft

/-- A column is read as its signs. -/
theorem Field.reads_draft (f : Field) :
    Draft.Reads Piece.signs f.draft ((Sign.column f).map .leaf) := by
  obtain ⟨name, source?⟩ := f
  cases source? with
  | none => exact .quoted name
  | some source => exact ((Draft.Reads.quoted source).append (.text ".")).append (.quoted name)

/-- A column mentions itself and nothing else. -/
theorem Field.mentions_draft (f : Field) : f.draft.Mentions [.field f] := fun _ =>
  ⟨_, f.reads_draft, by rw [Part.signsIn_map_leaf]; exact .column f⟩

end DialectSql
