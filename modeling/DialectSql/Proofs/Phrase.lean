import DialectSql.Proofs.Word
import DialectSql.Draft

/-!
# Phrases

The grammar of drafts. A phrase is put together from keywords, identifiers and constants in such a
way that no word runs from one part into the next: where two parts meet, the first one ends apart
or the second one begins apart. A parenthesis may hold any phrase; outside of parentheses the texts
of a phrase belong to a class of their own, so that it can be said which clauses a draft has.

What is true of the text of every phrase is proved by induction on the way in which it was put
together. That drafts of statements are phrases is proved in the modules below this one.

## Main definitions

* `Phrase` — drafts that are put together from whole words
* `Phrase.Optional` — a phrase or nothing

## Main results

* `Phrase.mono` — a phrase may be counted to a larger class
* `Phrase.lead`, `Phrase.separated`, `Phrase.joinWith` — the shapes in which statements are written
-/

namespace DialectSql

open Text

/-- Drafts that are put together from whole words. Identifiers between quotes are in the class `N`,
those without quotes in the class `B`, and the texts outside of parentheses in the class that is the
first index. The other two indices tell whether the phrase begins and ends with a character that no
word has. -/
inductive Phrase (N B : String → Prop) : (String → Prop) → Bool → Bool → Draft → Prop
  /-- Keywords, numbers and operators. -/
  | text {T : String → Prop} {t : String} (hplain : isPlain t = true) (ht : T t) :
      Phrase N B T (opensApart t) (closesApart t) (.text t)
  /-- A text literal of the language itself. -/
  | mark {T : String → Prop} {t : String} (hplain : isPlain t = true)
      (hinterior : isInterior t = true) :
      Phrase N B T true true (.text ("'" ++ t ++ "'"))
  /-- An identifier between quotes. -/
  | quoted {T : String → Prop} {name : String} (hname : N name) :
      Phrase N B T true true (.quoted name)
  /-- An identifier without quotes. -/
  | bare {T : String → Prop} {name : String} (hname : B name) :
      Phrase N B T false false (.piece (.bare name))
  /-- A constant. -/
  | value {T : String → Prop} (v : Value) : Phrase N B T false false (.piece (.value v))
  /-- A construct that cannot be written. -/
  | fail {T : String → Prop} {opens closes : Bool} (e : Error) : Phrase N B T opens closes (.fail e)
  /-- A pair of parentheses around nothing. -/
  | noArguments {T : String → Prop} : Phrase N B T true true Draft.empty.parens
  /-- A phrase between parentheses. -/
  | parens {T U : String → Prop} {opens closes : Bool} {d : Draft}
      (h : Phrase N B U opens closes d) : Phrase N B T true true d.parens
  /-- One phrase behind another. -/
  | append {T : String → Prop} {opens closes opens' closes' : Bool} {a b : Draft}
      (ha : Phrase N B T opens closes a) (hb : Phrase N B T opens' closes' b)
      (hapart : (closes || opens') = true) : Phrase N B T opens closes' (a ++ b)
  /-- Nothing has to be known about the ends. -/
  | weaken {T : String → Prop} {opens closes opens' closes' : Bool} {d : Draft}
      (h : Phrase N B T opens closes d) (hopens : opens' ≤ opens) (hcloses : closes' ≤ closes) :
      Phrase N B T opens' closes' d

namespace Phrase

variable {N B T U : String → Prop} {opens closes opens' closes' : Bool} {a b d : Draft}

/-- A phrase may be counted to a larger class. -/
theorem mono (h : Phrase N B T opens closes d) (hTU : ∀ t, T t → U t) :
    Phrase N B U opens closes d := by
  induction h with
  | text hplain ht => exact .text hplain (hTU _ ht)
  | mark hplain hinterior => exact .mark hplain hinterior
  | quoted hname => exact .quoted hname
  | bare hname => exact .bare hname
  | value v => exact .value v
  | fail e => exact .fail e
  | noArguments => exact .noArguments
  -- What stands between parentheses is of another class and stays in it.
  | parens h _ => exact .parens h
  | append _ _ hapart iha ihb => exact .append (iha hTU) (ihb hTU) hapart
  | weaken _ hopens hcloses ih => exact .weaken (ih hTU) hopens hcloses

/-- A phrase about whose ends nothing is said. -/
theorem loose (h : Phrase N B T opens closes d) : Phrase N B T false false d :=
  .weaken h (Bool.false_le _) (Bool.false_le _)

/-- A phrase about whose end nothing is said. -/
theorem looseEnd (h : Phrase N B T opens closes d) : Phrase N B T opens false d :=
  .weaken h (Bool.le_refl _) (Bool.false_le _)

/-- Keywords whose ends are known. -/
theorem spelled {t : String} (hplain : isPlain t = true) (ht : T t) (hopens : opens ≤ opensApart t)
    (hcloses : closes ≤ closesApart t) : Phrase N B T opens closes (.text t) :=
  .weaken (.text hplain ht) hopens hcloses

/-! ### Shapes -/

/-- A text in front of a phrase. -/
theorem lead {t : String} (ht : Phrase N B T opens true (.text t))
    (hd : Phrase N B T opens' closes d) : Phrase N B T opens closes (.text t ++ d) :=
  .append ht hd rfl

/-- A text between two phrases. -/
theorem separated {t : String} (ha : Phrase N B T opens closes a)
    (ht : Phrase N B T true true (.text t)) (hb : Phrase N B T opens' closes' b) :
    Phrase N B T opens closes' (a ++ .text t ++ b) :=
  .append (.append ha ht (Bool.or_true _)) hb rfl

/-- A phrase with nothing but another one behind it that begins apart. -/
theorem followedBy (ha : Phrase N B T opens closes a) (hb : Phrase N B T true closes' b) :
    Phrase N B T opens closes' (a ++ b) :=
  .append ha hb (Bool.or_true _)

end Phrase

/-- A phrase or nothing. Nothing is said about its end. -/
def Phrase.Optional (N B T : String → Prop) (opens : Bool) (d : Draft) : Prop :=
  d = .empty ∨ Phrase N B T opens false d

namespace Phrase

variable {N B T U : String → Prop} {opens closes opens' closes' : Bool} {a b d : Draft}

theorem optional (h : Phrase N B T opens closes d) : Optional N B T opens d := .inr h.looseEnd

theorem optional_empty : Optional N B T opens .empty := .inl rfl

theorem Optional.mono (h : Optional N B T opens d) (hTU : ∀ t, T t → U t) :
    Optional N B U opens d := by
  rcases h with rfl | h
  · exact optional_empty
  · exact .inr (h.mono hTU)

/-- A phrase with a phrase or nothing behind it. -/
theorem append_optional (ha : Phrase N B T opens closes a) (hb : Optional N B T opens' b)
    (hapart : (closes || opens') = true) : Phrase N B T opens false (a ++ b) := by
  rcases hb with rfl | hb
  · rw [Draft.append_empty]
    exact ha.looseEnd
  · exact .append ha hb hapart

/-- A phrase or nothing between parentheses. -/
theorem parens_optional (h : Optional N B U opens d) : Phrase N B T true true d.parens := by
  rcases h with rfl | h
  · exact .noArguments
  · exact .parens h

/-- Phrases with a text between them, where the ends of the phrases or those of the text are
apart. -/
theorem joinWith_of_apart {separator : String} (hs : Phrase N B T opens' closes' (.text separator))
    (hfront : (closes || opens') = true) (hback : (closes' || opens) = true) :
    ∀ {ds : List Draft}, ds ≠ [] → (∀ d ∈ ds, Phrase N B T opens closes d) →
      Phrase N B T opens closes (.joinWith separator ds)
  | [d], _, h => h d (by simp)
  | d :: e :: ds, _, h => by
    have hrest : Phrase N B T opens closes (.joinWith separator (e :: ds)) :=
      joinWith_of_apart hs hfront hback (by simp) fun x hx => h x (List.mem_cons_of_mem d hx)
    -- The separator meets the item in front of it, and then the others.
    rw [Draft.joinWith]
    · exact .append (.append (h d (by simp)) hs hfront) hrest hback
    · simp

/-- Phrases with a text between them that stands apart from both. -/
theorem joinWith {separator : String} (hs : Phrase N B T true true (.text separator))
    {ds : List Draft} (hne : ds ≠ []) (h : ∀ d ∈ ds, Phrase N B T opens closes d) :
    Phrase N B T opens closes (.joinWith separator ds) :=
  joinWith_of_apart hs (Bool.or_true _) rfl hne h

/-- A comma-separated list between parentheses. -/
theorem listParens {ds : List Draft} (hU : U ", ") (h : ∀ d ∈ ds, Phrase N B U opens closes d) :
    Phrase N B T true true (Draft.list ds).parens := by
  cases ds with
  | nil => exact .noArguments
  | cons d ds => exact .parens (joinWith (.text rfl hU) (by simp) h)

end Phrase

end DialectSql
