import DialectSql.Proofs.Word

/-!
# Runs

A text is read from left to right as runs of letters, digits and underscores, each of which is a
word, and as the signs between them. What words and signs stand for is left open.

## Main definitions

* `Text.runs` — what the words and signs of a text stand for

## Main results

* `Text.runs_append_of_closesApart`, `Text.runs_append_of_opensApart` — texts that stand apart are
  read on their own
* `Text.runs_of_all` — a text without signs is one word
* `Text.exists_of_mem_runs` — what is read comes from a word or a sign of the text
-/

namespace DialectSql.Text

variable {α : Type} (word : String → α) (sign : Char → List α)

/-- What some characters stand for as a word, in upper case, if there are any. -/
def runOf (chars : List Char) : List α :=
  if chars.isEmpty then [] else [word (String.ofList (chars.map Char.toUpper))]

/-- What the words and signs stand for behind the beginning of a word. -/
def runsFrom : (begun : List Char) → List Char → List α
  | begun, [] => runOf word begun
  | begun, c :: chars =>
    if Config.isNameChar c then runsFrom (begun ++ [c]) chars
    else runOf word begun ++ sign c ++ runsFrom [] chars

/-- What the words and signs of a text stand for. -/
def runs (t : String) : List α := runsFrom word sign [] t.toList

variable {word sign}

/-- A sign ends the word in front of it. -/
theorem runsFrom_append_cons {c : Char} (hc : Config.isNameChar c = false) (rest : List Char)
    (front : List Char) :
    ∀ begun, runsFrom word sign begun (front ++ c :: rest) =
      runsFrom word sign begun front ++ sign c ++ runsFrom word sign [] rest := by
  induction front with
  | nil =>
    intro begun
    simp [runsFrom, hc]
  | cons c' front ih =>
    intro begun
    rw [List.cons_append, runsFrom, runsFrom]
    split
    · exact ih _
    · simp only [ih, List.append_assoc]

/-- A text that ends apart is read on its own. -/
theorem runs_append_of_closesApart {t : String} (h : closesApart t = true) (u : String) :
    runs word sign (t ++ u) = runs word sign t ++ runs word sign u := by
  unfold closesApart lastApart at h
  cases hlast : t.toList.getLast? with
  | none => simp [hlast] at h
  | some c =>
    have hc : Config.isNameChar c = false := by simpa [hlast] using h
    obtain ⟨init, hinit⟩ := List.getLast?_eq_some_iff.mp hlast
    have hend : runsFrom word sign [] [] = [] := rfl
    rw [runs, runs, runs, String.toList_append, hinit, List.append_assoc, List.singleton_append,
      runsFrom_append_cons hc, runsFrom_append_cons hc, hend, List.append_nil]

/-- A text that begins apart is read on its own. -/
theorem runs_append_of_opensApart {u : String} (h : opensApart u = true) (t : String) :
    runs word sign (t ++ u) = runs word sign t ++ runs word sign u := by
  unfold opensApart headApart at h
  rw [runs, runs, runs, String.toList_append]
  cases hu : u.toList with
  | nil => simp [hu] at h
  | cons c rest =>
    have hc : Config.isNameChar c = false := by simpa [hu] using h
    have hfront : runsFrom word sign [] (c :: rest) = sign c ++ runsFrom word sign [] rest := by
      rw [← List.nil_append (c :: rest), runsFrom_append_cons hc]
      rfl
    rw [runsFrom_append_cons hc, hfront, List.append_assoc]

/-- Characters without signs are one word. -/
theorem runsFrom_of_all {chars : List Char} (h : chars.all Config.isNameChar = true) :
    ∀ begun, runsFrom word sign begun chars = runOf word (begun ++ chars) := by
  induction chars with
  | nil =>
    intro begun
    rw [List.append_nil, runsFrom]
  | cons c chars ih =>
    intro begun
    rw [List.all_cons, Bool.and_eq_true] at h
    rw [runsFrom, if_pos h.1, ih h.2, List.append_assoc, List.singleton_append]

/-- A text without signs is one word. -/
theorem runs_of_all {t : String} (hne : t.toList ≠ [])
    (h : t.toList.all Config.isNameChar = true) :
    runs word sign t = [word (String.ofList (t.toList.map Char.toUpper))] := by
  rw [runs, runsFrom_of_all h, List.nil_append, runOf, if_neg (by simpa using hne)]

/-- What is read of some characters comes from a word or from a sign. -/
theorem exists_of_mem_runsFrom {x : α} {chars : List Char} :
    ∀ {begun}, begun.all Config.isNameChar = true → x ∈ runsFrom word sign begun chars →
      (∃ w ∈ wordsOf (begun ++ chars), x = word w) ∨ ∃ c ∈ chars, x ∈ sign c := by
  have hrun : ∀ {begun : List Char}, begun.all Config.isNameChar = true → x ∈ runOf word begun →
      ∃ w ∈ wordsOf begun, x = word w := by
    intro begun hbegun hx
    unfold runOf at hx
    split at hx
    · cases hx
    · next hne =>
      refine ⟨_, ?_, List.mem_singleton.mp hx⟩
      rw [wordsOf_of_all (by simpa using hne) hbegun]
      exact List.mem_singleton_self _
  induction chars with
  | nil =>
    intro begun hbegun hx
    rw [List.append_nil]
    exact .inl (hrun hbegun hx)
  | cons c chars ih =>
    intro begun hbegun hx
    rw [runsFrom] at hx
    split at hx
    · next hc =>
      have hnext : (begun ++ [c]).all Config.isNameChar = true := by
        rw [List.all_append, hbegun]
        simpa using hc
      rw [List.append_cons]
      exact (ih hnext hx).imp_right fun ⟨e, he, hxe⟩ => ⟨e, List.mem_cons_of_mem c he, hxe⟩
    · next hc =>
      -- The word that has begun ends here, and what stands behind the sign is read anew.
      rw [wordsOf_append_cons (by simpa using hc)]
      rcases List.mem_append.mp hx with hx | hx
      · rcases List.mem_append.mp hx with hx | hx
        · obtain ⟨w, hw, hxw⟩ := hrun hbegun hx
          exact .inl ⟨w, List.mem_append_left _ hw, hxw⟩
        · exact .inr ⟨c, List.mem_cons_self, hx⟩
      · rcases ih rfl hx with ⟨w, hw, hxw⟩ | ⟨e, he, hxe⟩
        · exact .inl ⟨w, List.mem_append_right _ hw, hxw⟩
        · exact .inr ⟨e, List.mem_cons_of_mem c he, hxe⟩

/-- What is read of a text comes from one of its words or from a sign. -/
theorem exists_of_mem_runs {x : α} {t : String} (h : x ∈ runs word sign t) :
    (∃ w ∈ words t, x = word w) ∨ ∃ c ∈ t.toList, x ∈ sign c :=
  exists_of_mem_runsFrom (List.all_nil : [].all Config.isNameChar = true) h

end DialectSql.Text
