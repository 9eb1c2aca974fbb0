import DialectSql.Document.Reader
import DialectSql.Proofs.Document.Depth
import DialectSql.Proofs.Document.Number

/-!
# Written documents read back

A document that was written in one line is read as itself, except for what is nested too deep: below
that level it is unusable. Its numbers have to be read as they were written, which integers of 64
bits are.

## Main definitions

* `Json.Legible` — documents whose numbers are read as they were written
* `Json.tokens` — the tokens of a document
* `Json.Machine.Reads` — the machine from one state to another by some tokens
* `Json.Machine.ReadsValue` — the machine makes a document of the tokens of that document

## Main results

* `Json.tokens?_compact` — the tokens of a written document
* `Json.Machine.readsValue` — the machine makes the document of them, wherever a value may stand
* `Json.ofText?_compact` — a written document is read as itself, cut at the greatest depth
-/

namespace DialectSql.Json

/-- A document whose numbers are read as they were written. It holds nothing without a meaning. -/
inductive Legible : Json → Prop
  | null : Legible null
  | bool (b : Bool) : Legible (bool b)
  | int {n : Int} (hmin : Int64.minValue.toInt ≤ n) (hmax : n < UInt64.size) : Legible (int n)
  | float {x : Float} (h : word? (floatText x).toList = some (float x)) : Legible (float x)
  | string (s : String) : Legible (string s)
  | array {items : List Json} (h : ∀ item ∈ items, Legible item) : Legible (array items)
  | object {members : List (String × Json)} (h : ∀ m ∈ members, Legible m.2) :
    Legible (object members)

/-! ## The tokens of a document -/

mutual

/-- The tokens of a document. -/
def tokens : Json → List Token
  | string s => [.text (some s)]
  | array items => .openArray :: ([.comma].intercalate (tokensItems items) ++ [.closeArray])
  | object members =>
    .openObject :: ([.comma].intercalate (tokensMembers members) ++ [.closeObject])
  | j => [.scalar j]

/-- The tokens of each element of an array. -/
def tokensItems : List Json → List (List Token)
  | [] => []
  | item :: items => item.tokens :: tokensItems items

/-- The tokens of each member of an object. -/
def tokensMembers : List (String × Json) → List (List Token)
  | [] => []
  | (key, value) :: members => (.text (some key) :: .colon :: value.tokens) :: tokensMembers members

end

theorem compactItems_eq_map (items : List Json) : compactItems items = items.map compact := by
  induction items with
  | nil => rfl
  | cons item items ih => exact congrArg (item.compact :: ·) ih

theorem tokensItems_eq_map (items : List Json) : tokensItems items = items.map tokens := by
  induction items with
  | nil => rfl
  | cons item items ih => exact congrArg (item.tokens :: ·) ih

/-- The text of a member. -/
def compactMember (m : String × Json) : String := quoted m.1 ++ ":" ++ m.2.compact

/-- The tokens of a member. -/
def tokensMember (m : String × Json) : List Token := .text (some m.1) :: .colon :: m.2.tokens

theorem compactMembers_eq_map (members : List (String × Json)) :
    compactMembers members = members.map compactMember := by
  induction members with
  | nil => rfl
  | cons m members ih => exact congrArg (compactMember m :: ·) ih

theorem tokensMembers_eq_map (members : List (String × Json)) :
    tokensMembers members = members.map tokensMember := by
  induction members with
  | nil => rfl
  | cons m members ih => exact congrArg (tokensMember m :: ·) ih

/-! ### Reading them -/

section

variable {α : Type} {text : α → String} {parts : α → List Token}

/-- Texts with commas between them. -/
theorem tokens?_commaSeparated : ∀ {as : List α},
    (∀ a ∈ as, tokens? (text a).toList = some (parts a)) →
      tokens? (commaSeparated (as.map text)).toList =
        some ([.comma].intercalate (as.map parts))
  | [], _ => by rfl
  | [a], h => by simpa [commaSeparated] using h a
  | a :: b :: as, h => by
    rw [List.forall_mem_cons] at h
    have hrest := tokens?_commaSeparated h.2
    rw [commaSeparated, String.toList_intercalate] at hrest ⊢
    simp only [List.map_cons, List.intercalate_cons_cons, List.append_assoc] at hrest ⊢
    exact tokens?_append_mark h.1 rfl hrest

/-- Texts with commas between them, a mark in front of them and another one behind. -/
theorem tokens?_enclosed {opening closing : Char} {first last : Token} {as : List α}
    (hopening : mark? opening = some first) (hclosing : mark? closing = some last)
    (h : ∀ a ∈ as, tokens? (text a).toList = some (parts a)) :
    tokens? (opening :: ((commaSeparated (as.map text)).toList ++ [closing])) =
      some (first :: ([.comma].intercalate (as.map parts) ++ [last])) := by
  have hempty : tokens? [] = some [] := rfl
  exact tokens?_append_mark hempty hopening
    (tokens?_append_mark (tokens?_commaSeparated h) hclosing hempty)

end

/-- A member is a text, a colon and a document. -/
theorem tokens?_compactMember {m : String × Json}
    (h : tokens? m.2.compact.toList = some m.2.tokens) :
    tokens? (compactMember m).toList = some (tokensMember m) := by
  rw [compactMember, String.toList_append, String.toList_append, List.append_assoc]
  exact tokens?_append_mark (tokens?_quoted m.1) rfl h

/-- The tokens of a written document are those of the document. -/
theorem tokens?_compact {j : Json} (h : j.Legible) : tokens? j.compact.toList = some j.tokens := by
  induction h with
  | null => rfl
  | bool b => cases b <;> rfl
  | int hmin hmax => exact tokens?_of_word? (word?_integer hmin hmax)
  | float h => exact tokens?_of_word? h
  | string s => exact tokens?_quoted s
  | array h ih =>
    rw [compact, tokens, compactItems_eq_map, tokensItems_eq_map, String.toList_append,
      String.toList_append]
    exact tokens?_enclosed rfl rfl ih
  | object h ih =>
    rw [compact, tokens, compactMembers_eq_map, tokensMembers_eq_map, String.toList_append,
      String.toList_append]
    exact tokens?_enclosed rfl rfl fun m hm => tokens?_compactMember (ih m hm)

/-! ## The document of the tokens -/

namespace Machine

/-- The machine goes from the state `m` to the state `m'` by some tokens. -/
def Reads (m : Machine) (tokens : List Token) (m' : Machine) : Prop :=
  tokens.foldlM step m = some m'

namespace Reads

variable {m m' m'' : Machine} {token : Token} {front back : List Token}

theorem nil (m : Machine) : Reads m [] m := rfl

theorem cons (hstep : step m token = some m') (h : Reads m' back m'') :
    Reads m (token :: back) m'' := by
  rw [Reads, List.foldlM_cons, hstep]
  exact h

theorem append (hfront : Reads m front m') (hback : Reads m' back m'') :
    Reads m (front ++ back) m'' := by
  rw [Reads, List.foldlM_append, hfront]
  exact hback

end Reads

/-! ### Elements and members -/

section

variable {α : Type} {parts : α → List Token} {before after : List α → Machine}
  {m opened m' : Machine} {first last : Token}

/-- Parts with commas between them, if each of them is read and so is each comma. The states are
those before and after a part, given what was read, last first. -/
theorem reads_separated (hcomma : ∀ read, step (after read) .comma = some (before read)) :
    ∀ {as read : List α} {m : Machine} {a : α}, Reads m (parts a) (after (a :: read)) →
      (∀ b ∈ as, ∀ read, Reads (before read) (parts b) (after (b :: read))) →
        Reads m ([.comma].intercalate ((a :: as).map parts)) (after (as.reverse ++ a :: read))
  | [], _, _, _, ha, _ => by simpa using ha
  | b :: as, read, m, a, ha, h => by
    rw [List.forall_mem_cons] at h
    have hrest := reads_separated hcomma (h.1 (a :: read)) h.2
    rw [List.map_cons] at hrest ⊢
    rw [List.map_cons, List.intercalate_cons_cons, List.append_assoc, List.reverse_cons,
      List.append_assoc]
    exact ha.append (.cons (hcomma _) hrest)

/-- Parts with commas between them, and with a mark in front of them and another one behind. -/
theorem reads_enclosed {as : List α} (hopening : step m first = some opened)
    (hfirst : ∀ a ∈ as, Reads opened (parts a) (after [a]))
    (hpart : ∀ a ∈ as, ∀ read, Reads (before read) (parts a) (after (a :: read)))
    (hcomma : ∀ read, step (after read) .comma = some (before read))
    (hempty : step opened last = step (after []) last)
    (hclosing : step (after as.reverse) last = some m') :
    Reads m (first :: ([.comma].intercalate (as.map parts) ++ [last])) m' := by
  refine .cons hopening ?_
  cases as with
  | nil => exact .cons (hempty.trans hclosing) (.nil m')
  | cons a as =>
    rw [List.forall_mem_cons] at hfirst hpart
    rw [List.reverse_cons] at hclosing
    exact (reads_separated hcomma hfirst.1 hpart.2).append (.cons hclosing (.nil m'))

end

/-- The levels that can be used inside an array or object with `frames` around it. -/
def levelsInside (frames : List Frame) : Nat := maxDepth - (frames.length + 1)

/-- The state inside an array of which some elements were read, last first. -/
def inArray (frames : List Frame) (expected : Expected) (read : List Json) : Machine :=
  ⟨.array (read.map (cut · (levelsInside frames))) :: frames, expected, none⟩

/-- The state inside an object of which some members were read, last first. -/
def inObject (frames : List Frame) (expected : Expected) (read : List (String × Json)) : Machine :=
  ⟨.object (read.map fun (key, value) => (some key, value.cut (levelsInside frames)))
    (read.head?.map Prod.fst) :: frames, expected, none⟩

/-! ### Closing -/

/-- An array or object that is complete is cut if it is too deep. -/
theorem within_eq {frames : List Frame} {j j' : Json} (hzero : j.cut 0 = unusable)
    (hsucc : j.cut (levelsInside frames + 1) = j') :
    within frames j' = j.cut (maxDepth - frames.length) := by
  -- It is too deep exactly if no level is left where it stands.
  by_cases h : frames.length ≤ maxDepth - 1
  · have hlevels : maxDepth - frames.length = levelsInside frames + 1 := by
      simp only [levelsInside, maxDepth] at h ⊢
      omega
    rw [within, List.drop_eq_nil_of_le h, List.isEmpty_nil, if_pos rfl, hlevels, hsucc]
  · have hdrop : (frames.drop (maxDepth - 1)).isEmpty = false := by
      rw [List.isEmpty_eq_false_iff, ne_eq, List.drop_eq_nil_iff]
      exact h
    have hlevels : maxDepth - frames.length = 0 := by
      simp only [maxDepth] at h ⊢
      omega
    rw [within, hdrop, if_neg Bool.false_ne_true, hlevels, hzero]

/-- An object whose members all have a key. -/
theorem objectOf_reverse (members : List (String × Json)) :
    objectOf (members.map fun (key, value) => (some key, value)).reverse = object members := by
  have hall {f : Option String × Json → Option (String × Json)}
      (hf : ∀ m : String × Json, f (some m.1, m.2) = some m) (members : List (String × Json)) :
      (members.map fun (key, value) => (some key, value)).mapM f = some members := by
    induction members with
    | nil => rfl
    | cons m members ih =>
      rw [List.map_cons, List.mapM_cons, hf, ih]
      rfl
  rw [objectOf, ← List.map_reverse, hall fun _ => rfl]
  exact congrArg object (List.reverse_reverse members)

theorem step_closeArray (frames : List Frame) (items : List Json) :
    step (inArray frames .commaOrClose items.reverse) .closeArray =
      some (supply frames ((array items).cut (maxDepth - frames.length))) := by
  rw [← within_eq (by rfl) (cut_array items (levelsInside frames)), ← List.reverse_reverse
    (items.map (cut · (levelsInside frames))), ← List.map_reverse]
  rfl

theorem step_closeObject (frames : List Frame) (members : List (String × Json)) :
    step (inObject frames .commaOrClose members.reverse) .closeObject =
      some (supply frames ((object members).cut (maxDepth - frames.length))) := by
  rw [← within_eq (by rfl) (cut_object members (levelsInside frames)), ← objectOf_reverse,
    List.map_map, ← List.map_reverse]
  rfl

/-! ### Values -/

/-- Wherever a value may stand, the machine makes `j` of the tokens of `j`, as far as the levels
that are left there allow. -/
def ReadsValue (j : Json) : Prop :=
  ∀ frames : List Frame, Reads ⟨frames, .value, none⟩ j.tokens
    (supply frames (j.cut (maxDepth - frames.length)))

namespace ReadsValue

/-- What may be the first element of an array is read like any other. -/
theorem itemOrClose {j : Json} (h : ReadsValue j) (frames : List Frame) :
    Reads ⟨frames, .itemOrClose, none⟩ j.tokens
      (supply frames (j.cut (maxDepth - frames.length))) := by
  have hvalue := h frames
  -- No value begins with the mark that would close the array.
  cases j <;> (simp only [tokens] at hvalue ⊢; exact hvalue)

/-- A member is read if its value is, whether or not the object may end in front of it. -/
theorem member {m : String × Json} (h : ReadsValue m.2) (frames : List Frame)
    (read : List (String × Json)) {expected : Expected}
    (hexpected : expected = .key ∨ expected = .keyOrClose) :
    Reads (inObject frames expected read) (tokensMember m)
      (inObject frames .commaOrClose (m :: read)) := by
  rcases hexpected with rfl | rfl <;> exact .cons (by rfl) (.cons (by rfl) (h _))

theorem array {items : List Json} (h : ∀ item ∈ items, ReadsValue item) :
    ReadsValue (array items) := by
  intro frames
  have hopening : step ⟨frames, .value, none⟩ .openArray =
      some (inArray frames .itemOrClose []) := rfl
  have hcomma (read : List Json) : step (inArray frames .commaOrClose read) .comma =
      some (inArray frames .value read) := rfl
  rw [tokens, tokensItems_eq_map]
  exact reads_enclosed hopening (fun item hitem => (h item hitem).itemOrClose _)
    (fun item hitem read => h item hitem _) hcomma (by rfl) (step_closeArray frames items)

theorem object {members : List (String × Json)} (h : ∀ m ∈ members, ReadsValue m.2) :
    ReadsValue (object members) := by
  intro frames
  have hopening : step ⟨frames, .value, none⟩ .openObject =
      some (inObject frames .keyOrClose []) := rfl
  have hcomma (read : List (String × Json)) : step (inObject frames .commaOrClose read) .comma =
      some (inObject frames .key read) := rfl
  rw [tokens, tokensMembers_eq_map]
  exact reads_enclosed hopening (fun m hm => (h m hm).member frames [] (.inr rfl))
    (fun m hm read => (h m hm).member frames read (.inl rfl)) hcomma (by rfl)
    (step_closeObject frames members)

end ReadsValue

/-- The machine makes a legible document of its tokens. -/
theorem readsValue {j : Json} (h : j.Legible) : ReadsValue j := by
  induction h with
  | null | bool _ | int _ _ | float _ | string _ =>
    intro frames
    rw [cut_of_depth_eq_zero (by simp)]
    simp only [tokens]
    exact .cons (by rfl) (.nil _)
  | array _ ih => exact .array ih
  | object _ ih => exact .object ih

end Machine

/-! ## Texts of documents -/

/-- A document that was written in one line is read as itself, cut at the greatest depth. -/
theorem ofText?_compact {j : Json} (h : j.Legible) :
    ofText? j.compact = some (j.cut maxDepth) := by
  have hreads : j.tokens.foldlM Machine.step Machine.start =
      some (Machine.supply [] (j.cut maxDepth)) := Machine.readsValue h []
  rw [ofText?, tokens?_compact h, Option.bind_eq_bind, Option.bind_some, hreads]
  rfl

/-- A written document is read back exactly if it is not nested too deep. -/
theorem ofText?_compact_eq_iff {j : Json} (h : j.Legible) :
    ofText? j.compact = some j ↔ j.depth ≤ maxDepth := by
  rw [ofText?_compact h, Option.some.injEq, cut_eq_self_iff]

end DialectSql.Json
