import DialectSql.Document.Codec
import DialectSql.Proofs.Document.Depth

/-!
# Readings

How the outcome of reading a document follows from its layout. A reading recovers a value under a
condition if it has that value as its outcome where the condition holds, and fails where it does
not. A document restores a value if it can be recovered from it, but not once any level is cut off.
A reading ensures a property if every outcome has it. All of this passes through the steps of which
the readers are made: the members of records, the alternatives, and lists of either.

## Main definitions

* `Json.find?` — the member of a record under a key
* `Reading.Recovers` — a value is read back exactly under a condition
* `Reading.Restores` — a value is read back exactly under a condition and if nothing is cut off
* `Reading.Ensures` — whatever is read has a property

## Main results

* `Json.find?_of`, `Json.find?_ifSome`, `Json.find?_unlessEmpty` — the members of a written record
* `Reading.Recovers.bind`, `Reading.Recovers.require`, … — the steps of reading what was written
* `Reading.Restores.tagged`, `Reading.Restores.record`, … — the layouts of what is restored
* `Reading.Ensures.bind`, `Reading.Ensures.mapM` — the steps of reading any document
-/

namespace DialectSql

/-! ## The members of a written record -/

namespace Json

/-- The member of a record under a key. -/
def find? (key : String) (j : Json) : Option Json := (j.member? key).map Subtype.val

variable {key k : String} {members : List Member}

/-- A member is looked up among those of its record. -/
theorem find?_object (members : List (String × Json)) :
    find? key (object members) = (lookup? key members).map Subtype.val := by
  rw [find?, member?]
  cases lookup? key members <;> rfl

theorem lookup?_cons (value : Json) (members : List (String × Json)) :
    (lookup? key ((k, value) :: members)).map Subtype.val =
      if k = key then some value else (lookup? key members).map Subtype.val := by
  rw [lookup?]
  split
  · rfl
  · cases lookup? key members <;> rfl

@[simp] theorem find?_record_nil : find? key (record []) = none := rfl

@[simp] theorem find?_of (value : Json) :
    find? key (record (.of k value :: members)) =
      if k = key then some value else find? key (record members) := by
  simp only [record, Member.of, List.filterMap_cons, id, find?_object, lookup?_cons]

@[simp] theorem find?_ifSome {α : Type} (encode : α → Json) (value : Option α) :
    find? key (record (.ifSome k encode value :: members)) =
      if k = key then (value.map encode).or (find? key (record members))
      else find? key (record members) := by
  cases value with
  | none => simp [record, Member.ifSome]
  | some a =>
    simp only [record, Member.ifSome, Option.map_some, List.filterMap_cons, id, find?_object,
      lookup?_cons, Option.some_or]

/-- The list under a key that is left out if it has no elements. -/
def arrayUnlessEmpty (items : List Json) : Option Json :=
  if items.isEmpty then none else some (array items)

@[simp] theorem find?_unlessEmpty (items : List Json) :
    find? key (record (.unlessEmpty k items :: members)) =
      if k = key then (arrayUnlessEmpty items).or (find? key (record members))
      else find? key (record members) := by
  cases items with
  | nil => simp [record, Member.unlessEmpty, arrayUnlessEmpty]
  | cons item items =>
    simp only [record, Member.unlessEmpty, arrayUnlessEmpty, List.isEmpty_cons, Bool.false_eq_true,
      if_false, List.filterMap_cons, id, find?_object, lookup?_cons, Option.some_or]

@[simp] theorem isObject_record (members : List Member) : (record members).isObject = true := rfl

/-- A member of a cut record is cut itself, by one level less. -/
@[simp] theorem find?_cut (j : Json) (n : Nat) :
    find? key (j.cut (n + 1)) = (find? key j).map (cut · n) := by
  cases j with
  | object members =>
    rw [cut_object, find?_object, find?_object]
    induction members with
    | nil => rfl
    | cons m members ih =>
      rw [List.map_cons, lookup?_cons, lookup?_cons, ih]
      split <;> rfl
  | null | bool _ | int _ | float _ | string _ | array _ | unusable => rfl

@[simp] theorem isObject_cut (j : Json) (n : Nat) : (j.cut (n + 1)).isObject = j.isObject := by
  cases j <;> rfl

/-- What is written under a member, if anything is, has the property `P`. -/
def Member.Forall (P : Json → Prop) (m : Member) : Prop := ∀ x ∈ m, P x.2

section

variable {P : Json → Prop}

@[simp] theorem Member.forall_of {value : Json} : (Member.of k value).Forall P ↔ P value := by
  simp [Member.Forall, Member.of]

@[simp] theorem Member.forall_ifSome {α : Type} {encode : α → Json} {value : Option α} :
    (Member.ifSome k encode value).Forall P ↔ ∀ a ∈ value, P (encode a) := by
  cases value <;> simp [Member.Forall, Member.ifSome]

@[simp] theorem Member.forall_unlessEmpty {items : List Json} :
    (Member.unlessEmpty k items).Forall P ↔ ∀ x ∈ arrayUnlessEmpty items, P x := by
  cases items <;> simp [Member.Forall, Member.unlessEmpty, arrayUnlessEmpty]

end

/-- What is under the keys of a record is what its members are written with. -/
theorem forall_filterMap {P : Json → Prop} :
    (∀ x ∈ members.filterMap id, P x.2) ↔ ∀ m ∈ members, m.Forall P := by
  simp only [List.mem_filterMap, id, forall_exists_index, and_imp]
  exact ⟨fun h m hm x hx => h x m hm hx, fun h x m hm hx => h m hm x hx⟩

/-- The members of a record are one level further in. -/
theorem depth_record_le {n : Nat} :
    (record members).depth ≤ n + 1 ↔ ∀ m ∈ members, m.Forall (·.depth ≤ n) := by
  rw [record, depth_object_le]
  exact forall_filterMap (P := (·.depth ≤ n))

/-- A member that is found is a part of the record. -/
theorem exists_member? {j x : Json} (h : j.find? key = some x) :
    ∃ hx, j.member? key = some ⟨x, hx⟩ := by
  obtain ⟨⟨y, hy⟩, hmember, rfl⟩ := Option.map_eq_some_iff.mp h
  exact ⟨hy, hmember⟩

theorem member?_eq_none {j : Json} (h : j.find? key = none) : j.member? key = none :=
  Option.map_eq_none_iff.mp h

/-! ### Elements of arrays -/

theorem val_sized : ∀ items : List Json, (sized items).map Subtype.val = items
  | [] => rfl
  | item :: items => by
    rw [sized, List.map_cons, List.map_map]
    exact congrArg (item :: ·) ((List.map_congr_left fun _ _ => rfl).trans (val_sized items))

/-- The elements of an array, as they are. -/
theorem exists_items? (items : List Json) :
    ∃ parts, (array items).items? = some parts ∧ parts.map Subtype.val = items := by
  refine ⟨_, rfl, ?_⟩
  rw [List.map_map]
  exact (List.map_congr_left fun _ _ => rfl).trans (val_sized items)

/-- Parts are read by what they hold. -/
theorem mapM_val {α : Type} {j : Json} {parts : List j.Part} {items : List Json}
    (h : parts.map Subtype.val = items) (g : Json → Reading α) :
    parts.mapM (fun part => g part.val) = items.mapM g := by
  rw [← h, List.mapM_map]
  rfl

theorem exists_requireList {j : Json} {items : List Json} (h : j.find? key = some (array items)) :
    ∃ parts, j.requireList key = .ok parts ∧ parts.map Subtype.val = items := by
  obtain ⟨hx, hmember⟩ := exists_member? h
  obtain ⟨parts, hparts, hval⟩ := exists_items? items
  refine ⟨parts.map (Part.deeper ⟨array items, hx⟩), ?_, ?_⟩
  · rw [requireList, require, hmember]
    simp only [Reading.ofOption, bind, Except.bind, hparts]
    rfl
  · rw [List.map_map]
    exact (List.map_congr_left fun _ _ => rfl).trans hval

/-! ### Alternatives -/

@[simp] theorem variant_string (tag : String) : (string tag).variant = .ok ⟨tag, none⟩ := by rfl

theorem sizeOf_lt_tagged (tag : String) (body : Json) : sizeOf body < sizeOf (tagged tag body) := by
  simp only [tagged, object.sizeOf_spec, List.cons.sizeOf_spec, Prod.mk.sizeOf_spec]
  omega

@[simp] theorem variant_tagged (tag : String) (body : Json) :
    (tagged tag body).variant = .ok ⟨tag, some ⟨body, sizeOf_lt_tagged tag body⟩⟩ := by rfl

@[simp] theorem cut_tagged (tag : String) (body : Json) (n : Nat) :
    (tagged tag body).cut (n + 1) = tagged tag (body.cut n) := by rfl

@[simp] theorem depth_tagged_le {tag : String} {body : Json} {n : Nat} :
    (tagged tag body).depth ≤ n + 1 ↔ body.depth ≤ n := by
  simp [tagged]

@[simp] theorem depth_named {α : Type} [Named α] (a : α) : (named a).depth = 0 := by rfl

@[simp] theorem content_some {j : Json} (tag : String) (body : j.Part) :
    Variant.content ⟨tag, some body⟩ = .ok body := by rfl

@[simp] theorem nothing_none {j : Json} (tag : String) :
    Variant.nothing (j := j) ⟨tag, none⟩ = .ok () := by rfl

theorem toBool_bool (b : Bool) : (bool b).toBool = .ok b := by rfl

theorem toText_string (s : String) : (string s).toText = .ok s := by rfl

/-- A member of a finite family is read back from its name. -/
@[simp] theorem toNamed_named {α : Type} [Named α] (a : α) : (named a).toNamed = .ok a := by
  simp [toNamed, named, bind, Except.bind, Reading.ofOption]

end Json

namespace Reading

variable {α β : Type} {r : Reading α} {f : α → Reading β} {a : α} {b : β} {p q : Prop}

@[simp] theorem ok_bind (a : α) (f : α → Reading β) :
    (Except.ok a : Reading α) >>= f = f a := by rfl

/-! ## What is read back -/

/-- A reading has the outcome `a` if `p` holds, and fails otherwise. -/
structure Recovers (r : Reading α) (a : α) (p : Prop) : Prop where
  ok : p → r = .ok a
  error : ¬p → ∃ e, r = .error e

namespace Recovers

theorem of_ok (h : r = .ok a) (hp : p) : r.Recovers a p where
  ok _ := h
  error hp' := absurd hp hp'

theorem of_error {e : DocumentError} (h : r = .error e) (hp : ¬p) : r.Recovers a p where
  ok hp' := absurd hp' hp
  error _ := ⟨e, h⟩

theorem congr (h : r.Recovers a p) (hpq : p ↔ q) : r.Recovers a q where
  ok hq := h.ok (hpq.mpr hq)
  error hq := h.error fun hp => hq (hpq.mp hp)

/-- One reading after another. -/
theorem bind (hr : r.Recovers a p) (hf : (f a).Recovers b q) : (r >>= f).Recovers b (p ∧ q) where
  ok hpq := by rw [hr.ok hpq.1]; exact hf.ok hpq.2
  error hpq := by
    by_cases hp : p
    · rw [hr.ok hp]
      exact hf.error fun hq => hpq ⟨hp, hq⟩
    · obtain ⟨e, he⟩ := hr.error hp
      exact ⟨e, by rw [he]; rfl⟩

/-- A reading that succeeds before another one. -/
theorem step (hr : r = .ok a) (hf : (f a).Recovers b q) : (r >>= f).Recovers b q := by
  rw [hr]
  exact hf

/-- A value made of one that is read back. -/
theorem map (hr : r.Recovers a p) (g : α → β) :
    (r >>= fun a => pure (g a)).Recovers (g a) p :=
  (hr.bind (of_ok (by rfl) trivial)).congr (and_iff_left trivial)

/-- Elements are read back one by one. -/
theorem mapM {g : Json → Reading α} {encode : α → Json} {P : α → Prop} :
    ∀ {as : List α}, (∀ a ∈ as, (g (encode a)).Recovers a (P a)) →
      ((as.map encode).mapM g).Recovers as (∀ a ∈ as, P a)
  | [], _ => of_ok (by rfl) (by simp)
  | a :: as, h => by
    rw [List.forall_mem_cons] at h
    rw [List.map_cons, List.mapM_cons]
    exact (h.1.bind ((mapM h.2).map (a :: ·))).congr List.forall_mem_cons.symm

end Recovers

/-! ### Levels -/

/-- `g` has the outcome `a` on the document `x` of which some levels can be used, if `p` holds and
these are all its levels, and fails otherwise. -/
def Restores (g : Json → Reading α) (x : Json) (a : α) (p : Prop) : Prop :=
  ∀ n, (g (x.cut n)).Recovers a (p ∧ x.depth ≤ n)

namespace Restores

variable {g : Json → Reading α} {x : Json} {tag : String} {members : List Json.Member}

/-- A whole document is one with as many levels as it has. -/
theorem recovers (h : Restores g x a p) : (g x).Recovers a p := by
  have hall := h x.depth
  rw [Json.cut_eq_self_iff.mpr x.depth.le_refl] at hall
  exact hall.congr (and_iff_left x.depth.le_refl)

/-- Nothing can be cut off a scalar. -/
theorem scalar (h : (g x).Recovers a p) (hx : x.depth = 0) : Restores g x a p := by
  intro n
  have hle : x.depth ≤ n := hx ▸ n.zero_le
  rw [Json.cut_eq_self_iff.mpr hle]
  exact h.congr (and_iff_left hle).symm

theorem congr (h : Restores g x a p) (hpq : p ↔ q) : Restores g x a q :=
  fun n => (h n).congr (and_congr_left' hpq)

/-- What is made of an alternative is made of its body. -/
theorem tagged {body : Json} (hcut : ∃ e, g .unusable = .error e)
    (h : ∀ n, (g (.tagged tag (body.cut n))).Recovers a (p ∧ body.depth ≤ n)) :
    Restores g (.tagged tag body) a p
  | 0 => by
    obtain ⟨e, he⟩ := hcut
    exact .of_error he (by simp [Json.tagged, Json.depth])
  | n + 1 => by
    rw [Json.cut_tagged, Json.depth_tagged_le]
    exact h n

/-- What is made of a record is made of its members. -/
theorem record (hcut : ∃ e, g .unusable = .error e)
    (h : ∀ n, (g ((Json.record members).cut (n + 1))).Recovers a
      (p ∧ ∀ m ∈ members, m.Forall (·.depth ≤ n))) :
    Restores g (.record members) a p
  | 0 => by
    obtain ⟨e, he⟩ := hcut
    exact .of_error he (by simp [Json.record, Json.depth])
  | n + 1 => (h n).congr (and_congr_right' Json.depth_record_le.symm)

/-- An alternative whose body is a record. -/
theorem taggedRecord (hcut : ∃ e, g .unusable = .error e)
    (hbody : ∃ e, g (.tagged tag .unusable) = .error e)
    (h : ∀ n, (g (.tagged tag ((Json.record members).cut (n + 1)))).Recovers a
      (p ∧ ∀ m ∈ members, m.Forall (·.depth ≤ n))) :
    Restores g (.tagged tag (.record members)) a p :=
  tagged hcut (record (g := fun body => g (.tagged tag body)) hbody h)

/-- Elements are read back one by one. -/
theorem array {encode : α → Json} {as : List α} {P : α → Prop} (n : Nat)
    (h : ∀ a ∈ as, Restores g (encode a) a (P a)) :
    ((as.map fun a => (encode a).cut n).mapM g).Recovers as
      ((∀ a ∈ as, P a) ∧ (Json.array (as.map encode)).depth ≤ n + 1) := by
  refine (Recovers.mapM fun a ha => h a ha n).congr ?_
  rw [Json.depth_array_le, List.forall_mem_map]
  exact ⟨fun h => ⟨fun a ha => (h a ha).1, fun a ha => (h a ha).2⟩,
    fun h a ha => ⟨h.1 a ha, h.2 a ha⟩⟩

end Restores

/-! ### Members -/

namespace Recovers

variable {j x : Json} {key : String} {n : Nat} {d : Prop}

/-- A member that was written is there. -/
theorem require {f : j.Part → Reading β} (x : Json) (h : j.find? key = some x)
    (hf : ∀ hx, (f ⟨x, hx⟩).Recovers b q) : (j.require key >>= f).Recovers b q := by
  obtain ⟨hx, hmember⟩ := Json.exists_member? h
  exact step (by rw [Json.require, hmember, Reading.ofOption]) (hf hx)

/-- What a member that was written holds is read by a function of its own. -/
theorem member {g : Json → Reading α} (h : j.find? key = some (x.cut n))
    (hg : Restores g x a p) (hf : (f a).Recovers b (q ∧ d)) :
    (j.require key >>= fun part => g part.val >>= f).Recovers b
      ((p ∧ q) ∧ x.depth ≤ n ∧ d) :=
  require _ h fun _ => ((hg n).bind hf).congr and_and_and_comm

/-- What a member that was written holds is read by a function that succeeds on it. -/
theorem scalar {g : Json → Reading α} (h : j.find? key = some x) (hg : g x = .ok a)
    (hf : (f a).Recovers b q) :
    (j.require key >>= fun part => g part.val >>= f).Recovers b q :=
  require _ h fun _ => step hg hf

/-- A member that may be left out holds what is read by a function of its own. -/
theorem optional {g : Json → Reading α} {f : Option α → Reading β} {encode : α → Json}
    {P : α → Prop} (a? : Option α) (hj : j.isObject = true)
    (h : j.find? key = a?.map fun a => (encode a).cut n) (hnull : ∀ a, encode a ≠ .null)
    (hg : ∀ a ∈ a?, Restores g (encode a) a (P a)) (hf : (f a?).Recovers b (q ∧ d)) :
    (j.optional? key >>= fun part? => part?.mapM (fun part => g part.val) >>= f).Recovers b
      (((∀ a ∈ a?, P a) ∧ q) ∧ (∀ a ∈ a?, (encode a).depth ≤ n) ∧ d) := by
  cases a? with
  | none =>
    have hmissing : j.optional? key = .ok none := by
      rw [Json.optional?, if_pos hj, Json.member?_eq_none h]
    refine (step hmissing (step (a := none) (by rfl) hf)).congr ?_
    simp
  | some a =>
    obtain ⟨hx, hmember⟩ := Json.exists_member? h
    have hfound : j.optional? key = .ok (some ⟨(encode a).cut n, hx⟩) := by
      rw [Json.optional?, if_pos hj, hmember]
      -- A NULL would be read like a member that was left out.
      split
      · next heq =>
        have hcut : (encode a).cut n = .null := congrArg Subtype.val (Option.some.inj heq)
        exact absurd (Json.cut_eq_null_iff.mp hcut) (hnull a)
      · rfl
    refine step hfound ?_
    have hread : (Option.mapM (fun part : j.Part => g part.val)
        (some ⟨(encode a).cut n, hx⟩)).Recovers (some a) (P a ∧ (encode a).depth ≤ n) :=
      (hg a rfl n).map some
    refine (hread.bind hf).congr (and_and_and_comm.trans ?_)
    simp

/-- A member of a finite family that may be left out. -/
theorem optionalNamed [Named α] {f : Option α → Reading β} {a? : Option α}
    (hj : j.isObject = true) (h : j.find? key = a?.map .named) (hf : (f a?).Recovers b q) :
    (j.optional? key >>= fun part? => part?.mapM (fun part => part.val.toNamed) >>= f).Recovers b
      q :=
  (optional (n := 0) (P := fun _ => True) (d := True) a? hj (by simpa using h)
    (by simp [Json.named]) (fun a _ => .scalar (of_ok (Json.toNamed_named a) trivial) (by simp))
    (hf.congr (and_iff_left trivial).symm)).congr (by simp)

/-- A member of a finite family that may be missing, where it was written. -/
theorem presentNamed [Named α] {f : Option α → Reading β} (hj : j.isObject = true)
    (h : j.find? key = some (.named a)) (hf : (f (some a)).Recovers b q) :
    (j.present? key >>= fun part? => part?.mapM (fun part => part.val.toNamed) >>= f).Recovers b
      q := by
  obtain ⟨hx, hmember⟩ := Json.exists_member? h
  refine step (by rw [Json.present?, if_pos hj, hmember]) (step (a := some a) ?_ hf)
  rw [Option.mapM_some, Json.toNamed_named]
  rfl

/-- The elements under a key are read by a function of their own. -/
theorem list {g : Json → Reading α} {f : List α → Reading β} {encode : α → Json} {as : List α}
    {P : α → Prop} (h : j.find? key = some ((Json.array (as.map encode)).cut n))
    (hg : ∀ a ∈ as, Restores g (encode a) a (P a)) (hf : (f as).Recovers b (q ∧ d)) :
    (j.requireList key >>= fun parts => parts.mapM (fun part => g part.val) >>= f).Recovers b
      (((∀ a ∈ as, P a) ∧ q) ∧ (Json.array (as.map encode)).depth ≤ n ∧ d) := by
  cases n with
  | zero =>
    obtain ⟨hx, hmember⟩ := Json.exists_member? h
    have hmissing : j.requireList key = .error .unreadable := by
      rw [Json.requireList, Json.require, hmember]
      rfl
    exact of_error (by rw [hmissing]; rfl) (by simp [Json.depth])
  | succ n =>
    rw [Json.cut_array, List.map_map] at h
    obtain ⟨parts, hparts, hval⟩ := Json.exists_requireList h
    refine step hparts ?_
    rw [Json.mapM_val hval]
    exact ((Restores.array n hg).bind hf).congr and_and_and_comm

/-- The elements under a key that is left out if there are none. -/
theorem optionalList {g : Json → Reading α} {f : List α → Reading β} {encode : α → Json}
    {P : α → Prop} (as : List α) (hj : j.isObject = true)
    (h : j.find? key = (Json.arrayUnlessEmpty (as.map encode)).map (·.cut n))
    (hg : ∀ a ∈ as, Restores g (encode a) a (P a)) (hf : (f as).Recovers b (q ∧ d)) :
    (j.presentList key >>= fun parts => parts.mapM (fun part => g part.val) >>= f).Recovers b
      (((∀ a ∈ as, P a) ∧ q) ∧
        (∀ x ∈ Json.arrayUnlessEmpty (as.map encode), x.depth ≤ n) ∧ d) := by
  cases as with
  | nil =>
    have hmissing : j.presentList key = .ok [] := by
      rw [Json.presentList, Json.present?, if_pos hj, Json.member?_eq_none h]
      rfl
    refine (step hmissing (step (a := []) (by rfl) hf)).congr ?_
    simp [Json.arrayUnlessEmpty]
  | cons a as =>
    have hfound : j.presentList key = j.requireList key := by
      obtain ⟨hx, hmember⟩ := Json.exists_member? h
      rw [Json.presentList, Json.requireList, Json.present?, if_pos hj, Json.require, hmember]
      rfl
    rw [hfound]
    exact (list h hg hf).congr (by simp [Json.arrayUnlessEmpty])

end Recovers

/-! ## What is ensured -/

/-- Whatever is read has the property `P`. -/
def Ensures (r : Reading α) (P : α → Prop) : Prop := ∀ a, r = .ok a → P a

namespace Ensures

variable {P : α → Prop} {Q : β → Prop}

theorem pure (h : P a) : Ensures (Pure.pure a) P := by
  rintro _ ⟨⟩
  exact h

theorem throw (e : DocumentError) : Ensures (MonadExcept.throw e) P := by
  rintro _ ⟨⟩

/-- One reading after another. -/
theorem bind (hr : r.Ensures P) (hf : ∀ a, P a → (f a).Ensures Q) : (r >>= f).Ensures Q := by
  intro b hb
  cases hra : r with
  | error e => rw [hra] at hb; cases hb
  | ok a => rw [hra] at hb; exact hf a (hr a hra) b hb

/-- Whatever was read before. -/
theorem step (hf : ∀ a, (f a).Ensures Q) : (r >>= f).Ensures Q :=
  bind (P := fun _ => True) (fun _ _ => trivial) fun a _ => hf a

theorem mapM {γ : Type} {g : γ → Reading α} :
    ∀ {cs : List γ}, (∀ c ∈ cs, (g c).Ensures P) → (cs.mapM g).Ensures fun as => ∀ a ∈ as, P a
  | [], _ => pure (by simp)
  | c :: cs, h => by
    rw [List.forall_mem_cons] at h
    rw [List.mapM_cons]
    exact h.1.bind fun a ha => (mapM h.2).bind fun as has =>
      pure (List.forall_mem_cons.mpr ⟨ha, has⟩)

theorem option {γ : Type} {g : γ → Reading α} {c? : Option γ} (h : ∀ c ∈ c?, (g c).Ensures P) :
    (c?.mapM g).Ensures fun a? => ∀ a ∈ a?, P a := by
  cases c? with
  | none => exact pure (by simp)
  | some c => exact (h c rfl).bind fun a ha => pure (by simpa using ha)

end Ensures

end Reading

end DialectSql
