/-!
# Precedence

How databases read the operators of an expression. Every operator has a level, from the lists of
arguments over OR, AND, NOT, the comparisons and tests, arithmetic and bits up to the signs. An
operand has a level that is not below that of its operator, and one above it on the right, so that
operators of one level are applied from the left. Parentheses make an operand of anything.

A reader that knows these levels keeps the operators whose operands are not complete on a stack. It
finds the one term whose operators respect the levels, and no other.

## Main definitions

* `Lexeme`, `Term` — what an expression is read from, and what it is read as
* `unaryLevel`, `binaryLevel` — how tightly operators bind
* `Term.lexemes`, `Term.Levelled` — a term in writing, and whether its operators respect the levels
* `Lexeme.read` — the reader

## Main results

* `Lexeme.read_lexemes` — a term that respects the levels is read as itself
* `Lexeme.levelled_of_read` — whatever is read respects the levels
-/

namespace DialectSql

/-- A lexeme of an expression. -/
inductive Lexeme
  /-- A name, a number, a literal or a placeholder. -/
  | operand (text : String)
  /-- A keyword or the sign of an operator. -/
  | operator (symbol : String)
  | opening
  | closing
  deriving DecidableEq, Repr

/-- What an expression is read as. Parentheses are kept. -/
inductive Term
  /-- No argument. -/
  | nothing
  | operand (text : String)
  /-- The wildcard. -/
  | star
  | group (inner : Term)
  | call (function : String) (arguments : Term)
  | unary (symbol : String) (operand : Term)
  | binary (symbol : String) (left right : Term)
  deriving DecidableEq, Repr

/-- How tightly an operator in front of its operand binds; no operator has level 0. -/
def unaryLevel : String → Nat
  | "DISTINCT" => 1
  | "NOT" => 5
  | "-" | "~" => 8
  | _ => 0

/-- How tightly an operator between its operands binds; no operator has level 0. -/
def binaryLevel : String → Nat
  | "," => 2
  | "OR" => 3
  | "AND" => 4
  | "=" | "<>" | "<" | "<=" | ">" | ">=" | "IS" | "IS NOT" | "LIKE" | "IN" | "NOT IN" => 6
  | "+" | "-" | "*" | "/" | "%" | "&" | "|" | "^" | "#" | "||" => 7
  | _ => 0

/-- The lexemes of an operator between its operands: one for each word. -/
def Lexeme.spelled : String → List Lexeme
  | "IS NOT" => [operator "IS", operator "NOT"]
  | "NOT IN" => [operator "NOT", operator "IN"]
  | symbol => [operator symbol]

namespace Term

/-- The level of a term is that of its outermost operator. -/
def level : Term → Nat
  | nothing => 1
  | operand _ | star | group _ | call _ _ => 9
  | unary symbol _ => unaryLevel symbol
  | binary symbol _ _ => binaryLevel symbol

/-- A term in writing. -/
def lexemes : Term → List Lexeme
  | nothing => []
  | operand text => [.operand text]
  | star => [.operator "*"]
  | group inner => .opening :: inner.lexemes ++ [.closing]
  | call function arguments =>
    .operand function :: .opening :: arguments.lexemes ++ [.closing]
  | unary symbol inner => .operator symbol :: inner.lexemes
  | binary symbol left right => left.lexemes ++ Lexeme.spelled symbol ++ right.lexemes

/-- Whether all operators of a term respect the levels of their operands. -/
def Levelled : Term → Prop
  | nothing | operand _ | star => True
  | group inner => inner.Levelled
  | call _ arguments => arguments.Levelled
  | unary symbol inner =>
    0 < unaryLevel symbol ∧ unaryLevel symbol ≤ inner.level ∧ inner.Levelled
  | binary symbol left right =>
    0 < binaryLevel symbol ∧ binaryLevel symbol ≤ left.level ∧ binaryLevel symbol < right.level ∧
      left.Levelled ∧ right.Levelled

end Term

/-! ## The reader -/

namespace Lexeme

/-- What was read in front of an operand that is not complete. -/
inductive Pending
  | group
  | call (function : String)
  | unary (symbol : String)
  | binary (symbol : String) (left : Term)

/-- The level from which on an operand fits behind what is pending. -/
def demand : List Pending → Nat
  | .unary symbol :: _ => unaryLevel symbol
  | .binary symbol _ :: _ => binaryLevel symbol + 1
  | _ => 0

/-- A term completed to an operand of an operator of level `k`: pending operators that bind as
tightly are applied to it. -/
def complete (k : Nat) : Term → List Pending → Term × List Pending
  | t, .unary symbol :: pending =>
    if k ≤ unaryLevel symbol then complete k (.unary symbol t) pending
    else (t, .unary symbol :: pending)
  | t, .binary symbol left :: pending =>
    if k ≤ binaryLevel symbol then complete k (.binary symbol left t) pending
    else (t, .binary symbol left :: pending)
  | t, pending => (t, pending)

/-- Where a reader stands. -/
inductive State
  /-- In front of an operand. -/
  | before (pending : List Pending)
  /-- Behind an operand. -/
  | behind (t : Term) (pending : List Pending)
  /-- Behind an operand and a NOT that goes on with IN. -/
  | negated (t : Term) (pending : List Pending)

/-- The state behind an operator between operands. -/
def shift (symbol : String) (t : Term) (pending : List Pending) : State :=
  let (t, pending) := complete (binaryLevel symbol) t pending
  .before (.binary symbol t :: pending)

/-- The state behind a closing parenthesis. -/
def close (t : Term) (pending : List Pending) : Option State :=
  match complete 0 t pending with
  | (t, .group :: pending) => some (.behind (.group t) pending)
  | (t, .call function :: pending) => some (.behind (.call function t) pending)
  | _ => none

/-- The term at the end of an expression. -/
def finish (t : Term) (pending : List Pending) : Option Term :=
  match complete 0 t pending with
  | (t, []) => some t
  | _ => none

/-- The state behind an operator where an operand is missing. -/
def stepUnary (symbol : String) (pending : List Pending) : Option State :=
  if 0 < unaryLevel symbol ∧ demand pending ≤ unaryLevel symbol then
    some (.before (.unary symbol :: pending))
  else
    match symbol, pending with
    | "NOT", .binary "IS" left :: pending => some (.before (.binary "IS NOT" left :: pending))
    | "*", pending => some (.behind .star pending)
    | _, _ => none

/-- The state behind one lexeme more. -/
def step : State → Lexeme → Option State
  | .before pending, .operand text => some (.behind (.operand text) pending)
  | .before pending, .operator symbol => stepUnary symbol pending
  | .before pending, .opening => some (.before (.group :: pending))
  -- Only a list of arguments may be empty.
  | .before pending, .closing => if demand pending ≤ 1 then close .nothing pending else none
  | .behind t pending, .operator symbol =>
    if symbol = "NOT" then some (.negated t pending)
    else if 0 < binaryLevel symbol then some (shift symbol t pending)
    else none
  | .behind (.operand function) pending, .opening => some (.before (.call function :: pending))
  | .behind t pending, .closing => close t pending
  | .behind _ _, _ => none
  | .negated t pending, .operator symbol =>
    if symbol = "IN" then some (shift "NOT IN" t pending) else none
  | .negated _ _, _ => none

/-- The term that a state stands for at the end of an expression. -/
def State.term? : State → Option Term
  | .before pending => if demand pending ≤ 1 then finish .nothing pending else none
  | .behind t pending => finish t pending
  | .negated _ _ => none

/-- What the lexemes behind a state make of it. -/
def run (state : State) (lexemes : List Lexeme) : Option Term :=
  (lexemes.foldlM step state).bind State.term?

/-- The term that lexemes are read as. -/
def read (lexemes : List Lexeme) : Option Term := run (.before []) lexemes

/-- `NOT a = b` negates the comparison, whose operand on the left is `a`. -/
example : read [.operator "NOT", .operand "a", .operator "=", .operand "b"] =
    some (.unary "NOT" (.binary "=" (.operand "a") (.operand "b"))) := by rfl

/-! ## Levels -/

theorem unaryLevel_cases (symbol : String) :
    unaryLevel symbol = 0 ∨ unaryLevel symbol = 1 ∨ unaryLevel symbol = 5 ∨
      unaryLevel symbol = 8 := by
  unfold unaryLevel
  split <;> decide

theorem binaryLevel_cases (symbol : String) :
    binaryLevel symbol = 0 ∨ (2 ≤ binaryLevel symbol ∧ binaryLevel symbol ≤ 4) ∨
      (6 ≤ binaryLevel symbol ∧ binaryLevel symbol ≤ 7) := by
  unfold binaryLevel
  split <;> decide

/-- No operator in front of an operand binds as tightly as one between operands. -/
theorem unaryLevel_ne_binaryLevel {u b : String} (hb : 0 < binaryLevel b) :
    unaryLevel u ≠ binaryLevel b := by
  have hunary := unaryLevel_cases u
  have hbinary := binaryLevel_cases b
  omega

theorem one_lt_binaryLevel {symbol : String} (h : 0 < binaryLevel symbol) :
    1 < binaryLevel symbol := by
  have hbinary := binaryLevel_cases symbol
  omega

theorem binaryLevel_lt (symbol : String) : binaryLevel symbol < 9 := by
  have hbinary := binaryLevel_cases symbol
  omega

/-! ## Completeness -/

variable {state : State} {t t' : Term} {pending pending' : List Pending} {rest : List Lexeme}
  {k m : Nat} {symbol : String}

theorem run_nil : run state [] = state.term? := rfl

theorem run_cons (l : Lexeme) : run state (l :: rest) = (step state l).bind (run · rest) := by
  rw [run, List.foldlM_cons]
  cases step state l <;> rfl

/-- Behind an operand an operator of one word or two is shifted. -/
theorem run_spelled (h : 0 < binaryLevel symbol) :
    run (.behind t pending) (spelled symbol ++ rest) = run (shift symbol t pending) rest := by
  unfold spelled
  split
  · have hfirst : step (.behind t pending) (.operator "IS") = some (shift "IS" t pending) := rfl
    have hsecond : step (shift "IS" t pending) (.operator "NOT") =
        some (shift "IS NOT" t pending) := rfl
    rw [List.cons_append, run_cons, hfirst, List.cons_append, List.nil_append, Option.bind_some,
      run_cons, hsecond, Option.bind_some]
  · rw [List.cons_append, run_cons, List.cons_append, List.nil_append]
    simp [step, run_cons]
  · have hnot : symbol ≠ "NOT" := by
      rintro rfl
      exact absurd h (by decide)
    rw [List.cons_append, List.nil_append, run_cons]
    simp [step, hnot, h]

/-- What may stand behind a term of level `k`: the end, a closing parenthesis, or an operator that
binds as loosely. -/
inductive Follows (k : Nat) : List Lexeme → Prop
  | finish : Follows k []
  | closing (rest : List Lexeme) : Follows k (.closing :: rest)
  | operator {symbol : String} (hpos : 0 < binaryLevel symbol) (hle : binaryLevel symbol ≤ k)
    (rest : List Lexeme) : Follows k (spelled symbol ++ rest)

theorem Follows.mono (h : Follows k rest) (hkm : k ≤ m) : Follows m rest := by
  cases h with
  | finish => exact .finish
  | closing rest => exact .closing rest
  | operator hpos hle rest => exact .operator hpos (Nat.le_trans hle hkm) rest

/-- Two readers behind an operand go on in the same way if the operands are completed to the same
term. -/
theorem run_behind_congr (h : ∀ k ≤ m, complete k t pending = complete k t' pending')
    (hrest : Follows m rest) : run (.behind t pending) rest = run (.behind t' pending') rest := by
  cases hrest with
  | finish =>
    rw [run_nil, run_nil]
    simp only [State.term?, finish, h 0 (Nat.zero_le m)]
  | closing rest =>
    have hclose : close t pending = close t' pending' := by
      simp only [close, h 0 (Nat.zero_le m)]
    rw [run_cons, run_cons]
    cases t <;> cases t' <;> simp only [step, hclose]
  | operator hpos hle rest =>
    rw [run_spelled hpos, run_spelled hpos]
    simp only [shift, h _ hle]

/-- An operator that demands less of its operands completes nothing. -/
theorem complete_of_demand_le (hpos : 0 < binaryLevel symbol)
    (h : demand pending ≤ binaryLevel symbol) :
    complete (binaryLevel symbol) t pending = (t, pending) := by
  cases pending with
  | nil => rfl
  | cons p pending =>
    cases p with
    | group | call _ => rfl
    | unary u =>
      have hne := unaryLevel_ne_binaryLevel (u := u) hpos
      rw [complete, if_neg (by simp only [demand] at h; omega)]
    | binary b left => rw [complete, if_neg (by simp only [demand] at h; omega)]

/-- What stands between parentheses is read as if it stood alone. -/
theorem run_closing (t : Term) : run (.behind t pending) (.closing :: rest) =
    (close t pending).bind (run · rest) := by
  rw [run_cons]
  cases t <;> rfl

/-- A term that respects the levels is read up to its end, wherever an operand of its level fits. -/
theorem run_lexemes (ht : t.Levelled) (hdemand : demand pending ≤ t.level)
    (hrest : Follows t.level rest) :
    run (.before pending) (t.lexemes ++ rest) = run (.behind t pending) rest := by
  -- Operands are read behind further operators, so what is pending and what follows are general.
  induction t generalizing pending rest with
  | nothing =>
    rw [Term.lexemes, List.nil_append]
    have hempty : demand pending ≤ 1 := hdemand
    cases hrest with
    | finish => rw [run_nil, run_nil, State.term?, if_pos hempty, State.term?]
    | closing rest => rw [run_closing, run_cons, step, if_pos hempty]
    | operator hpos hle rest =>
      have hlevel := one_lt_binaryLevel hpos
      simp only [Term.level] at hle
      omega
  | operand text => rw [Term.lexemes, List.singleton_append, run_cons]; rfl
  | star =>
    rw [Term.lexemes, List.singleton_append, run_cons]
    simp [step, stepUnary, unaryLevel]
  | group inner ih =>
    rw [Term.lexemes, List.cons_append, List.cons_append, run_cons, List.append_assoc]
    exact (ih ht (Nat.zero_le _) (.closing rest)).trans (run_closing inner)
  | call function arguments ih =>
    rw [Term.lexemes, List.cons_append, List.cons_append, List.cons_append, run_cons,
      List.cons_append, List.append_assoc]
    exact (ih ht (Nat.zero_le _) (.closing rest)).trans (run_closing arguments)
  | unary symbol inner ih =>
    obtain ⟨hpos, hle, hinner⟩ := ht
    have hshift : step (.before pending) (.operator symbol) =
        some (.before (.unary symbol :: pending)) := if_pos ⟨hpos, hdemand⟩
    -- The operator waits for its operand, which it takes if no tighter operator follows.
    have hfits : demand (.unary symbol :: pending) ≤ inner.level := hle
    rw [Term.lexemes, List.cons_append, run_cons, hshift]
    exact (ih hinner hfits (hrest.mono hle)).trans
      (run_behind_congr (fun k hk => if_pos hk) hrest)
  | binary symbol left right ihl ihr =>
    obtain ⟨hpos, hleft, hright, htl, htr⟩ := ht
    -- The operator completes nothing in front of the left operand and waits for the right one.
    have hfits : demand (.binary symbol left :: pending) ≤ right.level := hright
    calc run (.before pending) ((left.lexemes ++ spelled symbol ++ right.lexemes) ++ rest)
      _ = run (.before pending) (left.lexemes ++ (spelled symbol ++ (right.lexemes ++ rest))) := by
        simp only [List.append_assoc]
      _ = run (.behind left pending) (spelled symbol ++ (right.lexemes ++ rest)) :=
        ihl htl (Nat.le_trans hdemand hleft) (.operator hpos hleft _)
      _ = run (.before (.binary symbol left :: pending)) (right.lexemes ++ rest) := by
        rw [run_spelled hpos, shift, complete_of_demand_le hpos hdemand]
      _ = run (.behind right (.binary symbol left :: pending)) rest :=
        ihr htr hfits (hrest.mono (Nat.le_of_lt hright))
      _ = run (.behind (.binary symbol left right) pending) rest :=
        run_behind_congr (fun k hk => if_pos hk) hrest

/-- A term that respects the levels is read as itself. -/
theorem read_lexemes (ht : t.Levelled) : read t.lexemes = some t := by
  have hwhole : run (.before []) (t.lexemes ++ []) = run (.behind t []) [] :=
    run_lexemes ht (Nat.zero_le _) .finish
  rw [List.append_nil] at hwhole
  exact hwhole

/-! ## Soundness -/

/-- What is pending in front of an operand respects the levels. -/
def Respects : List Pending → Prop
  | [] => True
  | .group :: pending | .call _ :: pending => Respects pending
  | .unary symbol :: pending =>
    0 < unaryLevel symbol ∧ demand pending ≤ unaryLevel symbol ∧ Respects pending
  | .binary symbol left :: pending =>
    0 < binaryLevel symbol ∧ demand pending ≤ binaryLevel symbol ∧
      binaryLevel symbol ≤ left.level ∧ left.Levelled ∧ Respects pending

/-- A term that respects the levels and fits behind what is pending. -/
structure Fits (t : Term) (pending : List Pending) : Prop where
  levelled : t.Levelled
  demand : demand pending ≤ t.level
  pending : Respects pending

theorem Fits.nothing (hdemand : Lexeme.demand pending ≤ 1) (h : Respects pending) :
    Fits .nothing pending :=
  ⟨trivial, hdemand, h⟩

/-- A completed operand still fits. Its level is not below that of the operator that it was
completed for, which fits behind what is left. -/
theorem Fits.complete (h : Fits t pending) (hk : k ≤ t.level) :
    Fits (complete k t pending).1 (complete k t pending).2 ∧ k ≤ (complete k t pending).1.level ∧
      Lexeme.demand (complete k t pending).2 ≤ k := by
  induction pending generalizing t with
  | nil => exact ⟨h, hk, Nat.zero_le k⟩
  | cons p pending ih =>
    cases p with
    | group | call _ => exact ⟨h, hk, Nat.zero_le k⟩
    | unary symbol =>
      obtain ⟨hlevelled, hdemand, hpos, hunder, hpending⟩ := h
      rw [Lexeme.complete]
      -- The operator takes its operand if it binds at least as tightly as what comes behind.
      split
      · next hle => exact ih ⟨⟨hpos, hdemand, hlevelled⟩, hunder, hpending⟩ hle
      · next hlt =>
        exact ⟨⟨hlevelled, hdemand, hpos, hunder, hpending⟩, hk, Nat.le_of_not_le hlt⟩
    | binary symbol left =>
      obtain ⟨hlevelled, hdemand, hpos, hunder, hleft, hleftLevelled, hpending⟩ := h
      rw [Lexeme.complete]
      split
      · next hle =>
        exact ih ⟨⟨hpos, hleft, hdemand, hleftLevelled, hlevelled⟩, hunder, hpending⟩ hle
      · next hlt =>
        exact ⟨⟨hlevelled, hdemand, hpos, hunder, hleft, hleftLevelled, hpending⟩, hk,
          Nat.lt_of_not_le hlt⟩

/-- A state that respects the levels. An operand that is complete by itself fits anywhere. -/
def State.Respects : State → Prop
  | .before pending => Lexeme.Respects pending
  | .behind t pending | .negated t pending => t.level = 9 ∧ t.Levelled ∧ Lexeme.Respects pending

theorem demand_le (pending : List Pending) : demand pending ≤ 9 := by
  unfold demand
  split
  · next symbol _ =>
    have hunary := unaryLevel_cases symbol
    omega
  · exact binaryLevel_lt _
  · decide

theorem respects_shift (hpos : 0 < binaryLevel symbol) (hlevel : t.level = 9) (ht : t.Levelled)
    (hpending : Respects pending) : (shift symbol t pending).Respects := by
  have hfits : Fits t pending := ⟨ht, hlevel ▸ demand_le pending, hpending⟩
  have hle : binaryLevel symbol ≤ t.level := by
    rw [hlevel]
    exact Nat.le_of_lt (binaryLevel_lt symbol)
  obtain ⟨⟨hlevelled, -, hrest⟩, hleft, hdemand⟩ := hfits.complete hle
  exact ⟨hpos, hdemand, hleft, hlevelled, hrest⟩

theorem respects_close (h : Fits t pending) (hclose : close t pending = some state) :
    state.Respects := by
  obtain ⟨⟨hlevelled, -, hrest⟩, -, -⟩ := h.complete (Nat.zero_le _)
  unfold close at hclose
  split at hclose
  · next heq =>
    cases hclose
    rw [heq] at hlevelled hrest
    exact ⟨rfl, hlevelled, hrest⟩
  · next heq =>
    cases hclose
    rw [heq] at hlevelled hrest
    exact ⟨rfl, hlevelled, hrest⟩
  · cases hclose

theorem levelled_of_finish (h : Fits t pending) (hfinish : finish t pending = some t') :
    t'.Levelled := by
  obtain ⟨⟨hlevelled, -, -⟩, -, -⟩ := h.complete (Nat.zero_le _)
  unfold finish at hfinish
  split at hfinish
  · next heq =>
    cases hfinish
    rwa [heq] at hlevelled
  · cases hfinish

theorem respects_stepUnary (h : Respects pending) (hstep : stepUnary symbol pending = some state) :
    state.Respects := by
  unfold stepUnary at hstep
  split at hstep
  · next hfits =>
    cases hstep
    exact ⟨hfits.1, hfits.2, h⟩
  · split at hstep
    -- IS and IS NOT are of one level.
    · cases hstep
      exact h
    · cases hstep
      exact ⟨rfl, trivial, h⟩
    · cases hstep

/-- One lexeme more leaves a state that respects the levels. -/
theorem respects_step {l : Lexeme} {state' : State} (h : state.Respects)
    (hstep : step state l = some state') : state'.Respects := by
  cases state with
  | before pending =>
    cases l with
    | operand text =>
      cases hstep
      exact ⟨rfl, trivial, h⟩
    | operator symbol => exact respects_stepUnary h hstep
    | opening =>
      cases hstep
      exact h
    | closing =>
      rw [step] at hstep
      split at hstep
      · next hle => exact respects_close (.nothing hle h) hstep
      · cases hstep
  | behind t pending =>
    obtain ⟨hlevel, ht, hpending⟩ := h
    cases l with
    | operand text => cases t <;> cases hstep
    | operator symbol =>
      rw [step] at hstep
      split at hstep
      -- A NOT behind an operand waits for its IN.
      · cases hstep
        exact ⟨hlevel, ht, hpending⟩
      · split at hstep
        · next hpos =>
          cases hstep
          exact respects_shift hpos hlevel ht hpending
        · cases hstep
    | opening =>
      -- A parenthesis behind an operand opens its arguments.
      cases t with
      | operand function =>
        cases hstep
        exact hpending
      | _ => cases hstep
    | closing =>
      have hfits : Fits t pending := ⟨ht, hlevel ▸ demand_le pending, hpending⟩
      refine respects_close hfits (Eq.trans ?_ hstep)
      cases t <;> rfl
  | negated t pending =>
    obtain ⟨hlevel, ht, hpending⟩ := h
    cases l with
    | operator symbol =>
      rw [step] at hstep
      split at hstep
      · cases hstep
        exact respects_shift (by decide) hlevel ht hpending
      · cases hstep
    | _ => cases hstep

theorem levelled_of_run (h : state.Respects) {lexemes : List Lexeme}
    (hrun : run state lexemes = some t) : t.Levelled := by
  induction lexemes generalizing state with
  | nil =>
    rw [run_nil] at hrun
    cases state with
    | before pending =>
      rw [State.term?] at hrun
      split at hrun
      · next hle => exact levelled_of_finish (.nothing hle h) hrun
      · cases hrun
    | behind u pending =>
      obtain ⟨hlevel, hu, hpending⟩ := h
      exact levelled_of_finish ⟨hu, hlevel ▸ demand_le pending, hpending⟩ hrun
    | negated u pending => cases hrun
  | cons l rest ih =>
    rw [run_cons] at hrun
    obtain ⟨state', hstep, hrest⟩ := Option.bind_eq_some_iff.mp hrun
    exact ih (respects_step h hstep) hrest

/-- Whatever is read respects the levels. -/
theorem levelled_of_read {lexemes : List Lexeme} (h : read lexemes = some t) : t.Levelled :=
  have hstart : (State.before []).Respects := trivial
  levelled_of_run hstart h

/-- A term is read from its own lexemes exactly if it respects the levels. -/
theorem read_lexemes_iff : read t.lexemes = some t ↔ t.Levelled :=
  ⟨levelled_of_read, read_lexemes⟩

end Lexeme

end DialectSql
