import DialectSql.Proofs.RowNumber.Column
import DialectSql.Proofs.Run

/-!
# Glyphs and widths

The width of a query is the number of its columns. It is read from the outline of a text, in which
each pair of parentheses is one glyph that knows the width of the query inside. Commas separate the
items behind the SELECT. Each item is one column, unless it is a star: that stands for all columns
of the FROM, whose number is known if the FROM is a single derived table.

## Main definitions

* `Glyph` — what stands in a query
* `Text.glyphs`, `Part.glyphsIn` — the glyphs of a text and of an outline
* `Glyph.width?` — the width of a query
* `Glyph.Items` — items with some number of columns and stars

## Main results

* `Text.glyphs_append_of_closesApart` — a text that stands apart is read on its own
* `Glyph.Items.append` — one item more
* `Glyph.Items.width?_eq` — the width of a query from its items and its FROM
-/

namespace DialectSql

/-- What stands in a query. -/
inductive Glyph
  /-- A keyword, a number or a name of the language itself. -/
  | word (text : String)
  /-- An identifier of the statement. -/
  | name
  /-- A comma. -/
  | comma
  /-- The point of a qualified name. -/
  | dot
  /-- A star, or a sign of multiplication. -/
  | star
  /-- Another sign, or a constant. -/
  | other
  /-- Parentheses, and the width of the query between them where that is known. -/
  | parens (width? : Option Nat)
  deriving DecidableEq

/-! ## Texts -/

namespace Text

/-- The word of some characters, in upper case. -/
def wordGlyphs (chars : List Char) : List Glyph :=
  if chars.isEmpty then [] else [.word (String.ofList (chars.map Char.toUpper))]

/-- What a character is that no word has. -/
def signGlyphs : Char → List Glyph
  | ' ' => []
  | ',' => [.comma]
  | '.' => [.dot]
  | '*' => [.star]
  | _ => [.other]

/-- The glyphs of some characters behind the beginning of a word. -/
def glyphsFrom : (begun : List Char) → List Char → List Glyph
  | begun, [] => wordGlyphs begun
  | begun, c :: chars =>
    if Config.isNameChar c then glyphsFrom (begun ++ [c]) chars
    else wordGlyphs begun ++ signGlyphs c ++ glyphsFrom [] chars

/-- The glyphs of a text. -/
def glyphs (t : String) : List Glyph := glyphsFrom [] t.toList

theorem glyphsFrom_eq (chars : List Char) :
    ∀ begun, glyphsFrom begun chars = runsFrom .word signGlyphs begun chars := by
  induction chars with
  | nil => exact fun _ => rfl
  | cons c chars ih =>
    intro begun
    rw [glyphsFrom, runsFrom, ih, ih]
    rfl

/-- The glyphs of a text are those of its words and signs. -/
theorem glyphs_eq (t : String) : glyphs t = runs .word signGlyphs t := glyphsFrom_eq t.toList []

/-- A text that ends apart is read on its own. -/
theorem glyphs_append_of_closesApart {t : String} (h : closesApart t = true) (u : String) :
    glyphs (t ++ u) = glyphs t ++ glyphs u := by
  simp only [glyphs_eq, runs_append_of_closesApart h]

/-- A text that begins apart is read on its own. -/
theorem glyphs_append_of_opensApart {u : String} (h : opensApart u = true) (t : String) :
    glyphs (t ++ u) = glyphs t ++ glyphs u := by
  simp only [glyphs_eq, runs_append_of_opensApart h]

/-- A text without signs is one word. -/
theorem glyphs_of_all {t : String} (hne : t.toList ≠ [])
    (h : t.toList.all Config.isNameChar = true) :
    glyphs t = [.word (String.ofList (t.toList.map Char.toUpper))] := by
  rw [glyphs_eq, runs_of_all hne h]

/-- A number is one word. -/
theorem exists_glyphs_natural (n : Nat) : ∃ w, glyphs (natural n) = [.word w] := by
  obtain ⟨c, hc, -⟩ := exists_isDigit_natural n
  exact ⟨_, glyphs_of_all (List.ne_nil_of_mem hc) (all_isNameChar_natural n)⟩

end Text

/-- The glyphs of a piece that is no parenthesis. -/
def Piece.glyphs : Piece → List Glyph
  | text t => Text.glyphs t
  | opening | closing => []
  | quoted _ | bare _ => [.name]
  | value _ => [.other]

/-! ## Widths -/

namespace Glyph

/-- The words between which the items of a query stand. -/
def isClause : Glyph → Bool
  | word w => ["DISTINCT", "TOP", "FROM"].contains w
  | _ => false

/-- A word with another first letter does not end the items of a query. -/
theorem isClause_word {w : String} (h : ∀ c ∈ w.toList.head?, c ∉ ['D', 'T', 'F']) :
    isClause (word w) = false := by
  refine Bool.eq_false_iff.mpr fun hclause => ?_
  simp only [isClause, List.contains_cons, List.contains_nil, Bool.or_false, Bool.or_eq_true,
    beq_iff_eq] at hclause
  rcases hclause with rfl | rfl | rfl
  · exact h 'D' rfl (by decide)
  · exact h 'T' rfl (by decide)
  · exact h 'F' rfl (by decide)

/-- What stands behind the DISTINCT of a query. -/
def afterDistinct : List Glyph → List Glyph
  | word "DISTINCT" :: gs => gs
  | gs => gs

/-- What stands behind the TOP of a query and its number. -/
def afterTop : List Glyph → List Glyph
  | word "TOP" :: word _ :: gs => gs
  | gs => gs

/-- Whether an item stands for all columns of the FROM, or for those of a source. -/
def isStar : List Glyph → Bool
  | [star] | [name, dot, star] | [word _, dot, star] => true
  | _ => false

/-- Whether the sources of a FROM have ended. -/
def endsSources : List Glyph → Bool
  | [] => true
  | word w :: _ => (Place.closingWords ++ ["LIMIT", "OFFSET"]).contains w
  | _ => false

/-- Whether nothing but an alias stands behind the first source of a FROM. -/
def isAlone : List Glyph → Bool
  | name :: gs => endsSources gs
  | word w :: gs => endsSources (word w :: gs) || endsSources gs
  | gs => endsSources gs

/-- The number of columns of a FROM, which is known if that is a single derived table. -/
def sourceWidth? : List Glyph → Option Nat
  | parens width? :: gs => if isAlone gs then width? else none
  | _ => none

/-- The width of a query: one for each item, and that of the FROM for each star. A set operation is
as wide as its first operand. -/
def width? : List Glyph → Option Nat
  | word "SELECT" :: gs =>
    let query := afterTop (afterDistinct gs)
    let items := (query.takeWhile (· != word "FROM")).splitOn comma
    let stars := items.countP isStar
    let columns := items.countP (!isStar ·)
    if stars = 0 then some columns
    else (sourceWidth? (query.dropWhile (· != word "FROM")).tail).map (columns + stars * ·)
  | _ => none

end Glyph

namespace Part

mutual

/-- The glyph of a part. -/
def glyph : Part Glyph → Glyph
  | leaf g => g
  | parens inner => .parens (Glyph.width? (glyphsIn inner))

/-- The glyphs of some parts. -/
def glyphsIn : List (Part Glyph) → List Glyph
  | [] => []
  | p :: ps => p.glyph :: glyphsIn ps

end

@[simp] theorem glyphsIn_append (ps qs : List (Part Glyph)) :
    glyphsIn (ps ++ qs) = glyphsIn ps ++ glyphsIn qs := by
  induction ps with
  | nil => rfl
  | cons p ps ih => rw [List.cons_append, glyphsIn, ih, glyphsIn, List.cons_append]

@[simp] theorem glyphsIn_map_leaf (gs : List Glyph) : glyphsIn (gs.map .leaf) = gs := by
  induction gs with
  | nil => rfl
  | cons g gs ih => rw [List.map_cons, glyphsIn, ih, glyph]

end Part

/-! ## Items -/

namespace Glyph

variable {columns stars : Nat} {gs : List Glyph}

/-- Items of which some are columns and the others stars. -/
structure Items (columns stars : Nat) (gs : List Glyph) : Prop where
  /-- The columns. -/
  columns_eq : (gs.splitOn comma).countP (!isStar ·) = columns
  /-- The stars. -/
  stars_eq : (gs.splitOn comma).countP isStar = stars
  /-- The items are not ended by a word. -/
  inside : ∀ g ∈ gs, g.isClause = false

namespace Items

/-- A single item that is no star. -/
theorem column (hcomma : comma ∉ gs) (hinside : ∀ g ∈ gs, g.isClause = false)
    (hstar : isStar gs = false) : Items 1 0 gs := by
  have hsplit : gs.splitOn comma = [gs] :=
    List.splitOnP_eq_singleton fun g hg => beq_eq_false_iff_ne.mpr fun h => hcomma (h ▸ hg)
  constructor
  · rw [hsplit]
    simp [hstar]
  · rw [hsplit]
    simp [hstar]
  · exact hinside

/-- A star by itself. -/
theorem star : Items 0 1 [Glyph.star] :=
  ⟨rfl, rfl, List.forall_mem_singleton.mpr rfl⟩

/-- Items with others behind them. -/
theorem append {columns' stars' : Nat} {gs' : List Glyph} (h : Items columns stars gs)
    (h' : Items columns' stars' gs') :
    Items (columns + columns') (stars + stars') (gs ++ comma :: gs') := by
  have hsplit : (gs ++ comma :: gs').splitOn comma = gs.splitOn comma ++ gs'.splitOn comma :=
    List.splitOnP_append_cons gs gs' (by simp)
  constructor
  · rw [hsplit, List.countP_append, h.columns_eq, h'.columns_eq]
  · rw [hsplit, List.countP_append, h.stars_eq, h'.stars_eq]
  · rw [List.forall_mem_append, List.forall_mem_cons]
    exact ⟨h.inside, rfl, h'.inside⟩

end Items

/-- What can stand between the SELECT and the items of a query. -/
def headGlyphs (distinct : Bool) (top? : Option String) : List Glyph :=
  (if distinct then [word "DISTINCT"] else []) ++ top?.elim [] fun n => [word "TOP", word n]

/-- Behind the head of a query its items begin. -/
theorem afterTop_afterDistinct_headGlyphs (distinct : Bool) (top? : Option String)
    (hdistinct : gs.head? ≠ some (word "DISTINCT")) (htop : gs.head? ≠ some (word "TOP")) :
    afterTop (afterDistinct (headGlyphs distinct top? ++ gs)) = gs := by
  have hnoDistinct : afterDistinct gs = gs := by
    unfold afterDistinct
    split
    · simp at hdistinct
    · rfl
  have hnoTop : afterTop gs = gs := by
    unfold afterTop
    split
    · simp at htop
    · rfl
  cases distinct with
  | true =>
    cases top? with
    | none => exact hnoTop
    | some n => rfl
  | false =>
    cases top? with
    | none => exact (congrArg afterTop hnoDistinct).trans hnoTop
    | some n => rfl

/-- The width of a query is counted from its items, and from its FROM if there are stars. -/
theorem Items.width?_eq (h : Items columns stars gs) (distinct : Bool) (top? : Option String)
    (rest : List Glyph) :
    width? (word "SELECT" :: (headGlyphs distinct top? ++ (gs ++ word "FROM" :: rest))) =
      if stars = 0 then some columns else (sourceWidth? rest).map (columns + stars * ·) := by
  -- The first item is not taken for a part of the head.
  have hhead : ∀ w, isClause (word w) = true → w ≠ "FROM" →
      (gs ++ word "FROM" :: rest).head? ≠ some (word w) := by
    intro w hw hfrom hfirst
    cases gs with
    | nil => exact hfrom (by simpa using hfirst.symm)
    | cons g gs =>
      obtain rfl : g = word w := by simpa using hfirst
      rw [h.inside _ List.mem_cons_self] at hw
      cases hw
  -- The first FROM is the one behind the items.
  have hitems : ∀ g ∈ gs, (g != word "FROM") = true := by
    intro g hg
    refine bne_iff_ne.mpr fun hfrom => ?_
    have hclause := h.inside g hg
    rw [hfrom] at hclause
    cases hclause
  simp only [width?]
  rw [afterTop_afterDistinct_headGlyphs distinct top? (hhead _ rfl (by decide))
      (hhead _ rfl (by decide)), List.takeWhile_append_of_pos hitems,
    List.dropWhile_append_of_pos hitems, List.takeWhile_cons_of_neg (by simp),
    List.dropWhile_cons_of_neg (by simp), List.append_nil, List.tail_cons, h.columns_eq,
    h.stars_eq]

end Glyph

end DialectSql
