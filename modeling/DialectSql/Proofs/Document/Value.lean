import DialectSql.Document.Value
import DialectSql.Proofs.Document.Reading
import DialectSql.Proofs.Document.Text
import DialectSql.Proofs.Ingredient

/-!
# Documents of values read back

What was written for a value or a column is read as that value or column, unless it is a float that
is not finite, a column whose name is against the rules, or a document of which a level is cut off.
Nothing that is read is such a float or column.

## Main results

* `Value.restores_decode`, `Numeric.restores_decode`, `Field.restores_decode` — what was written is
  read back exactly if documents can hold it and it is not cut
* `Value.ensures_decode`, `Numeric.ensures_decode`, `Field.ensures_decode` — documents hold nothing
  else
-/

namespace DialectSql

open Reading (Recovers Restores Ensures)

/-! ## Scalars -/

namespace Json

@[simp] theorem toInt64_int (n : Int64) : toInt64 (int n.toInt) = .ok n := by
  have hmin := n.minValue_le_toInt
  have hmax := n.toInt_le
  rw [toInt64, if_pos ⟨hmin, hmax⟩, Int64.ofInt_toInt]

@[simp] theorem toUInt64_int (n : UInt64) : toUInt64 (int n.toNat) = .ok n := by
  have hlt := n.toNat_lt_size
  rw [toUInt64, if_pos ⟨by omega, by omega⟩, Int.toNat_natCast, UInt64.ofNat_toNat]

@[simp] theorem toUInt8_int (n : UInt8) : toUInt8 (int n.toNat) = .ok n := by
  have hlt := n.toNat_lt_size
  rw [toUInt8, if_pos ⟨by omega, by omega⟩, Int.toNat_natCast, UInt8.ofNat_toNat]

@[simp] theorem toChar_ofChar (c : Char) : (ofChar c).toChar = .ok c := by
  simp [ofChar, toChar, toText, bind, Except.bind, pure, Except.pure]

/-- Bytes are read back. -/
theorem restores_toBytes (bytes : List UInt8) : Restores toBytes (ofBytes bytes) bytes True := by
  rintro (_ | n)
  · exact .of_error (by rfl) (by simp [ofBytes, depth])
  obtain ⟨parts, hparts, hval⟩ := exists_items? (bytes.map fun byte => (int byte.toNat).cut n)
  have hread : ((bytes.map fun byte => (int byte.toNat).cut n).mapM toUInt8).Recovers bytes
      ((∀ byte ∈ bytes, True) ∧ (ofBytes bytes).depth ≤ n + 1) :=
    Restores.array n fun byte _ => .scalar (.of_ok (toUInt8_int byte) trivial) (depth_int _)
  have hcut : (ofBytes bytes).cut (n + 1) =
      array (bytes.map fun byte => (int byte.toNat).cut n) := by
    rw [ofBytes, cut_array, List.map_map]
    rfl
  rw [hcut, toBytes, hparts]
  rw [← mapM_val hval] at hread
  exact hread.congr (and_congr_left' (iff_true_intro fun _ _ => trivial))

@[simp] theorem depth_ofChar (c : Char) : (ofChar c).depth = 0 := by rfl

@[simp] theorem depth_ofFloat (x : Float) : (ofFloat x).depth = 0 := by
  unfold ofFloat
  split <;> rfl

/-- A float is read back if it is finite, and no float otherwise. -/
theorem recovers_toFloat (x : Float) : (ofFloat x).toFloat.Recovers x (x.isFinite = true) := by
  unfold ofFloat
  split
  · next h => exact .of_ok (by rw [toFloat, finite, if_pos h]) h
  · next h => exact .of_error (by rfl) h

/-- Every float that is read is finite. -/
theorem ensures_toFloat (j : Json) : j.toFloat.Ensures fun x => x.isFinite = true := by
  have hfinite (x : Float) : (finite x).Ensures fun x => x.isFinite = true := by
    unfold finite
    split
    · next h => exact .pure h
    · exact .throw _
  unfold toFloat
  split
  · exact hfinite _
  · exact hfinite _
  · exact .throw _

theorem optionalText_of_find? {j : Json} {key : String} {text? : Option String}
    (hj : j.isObject = true) (h : j.find? key = text?.map .string) :
    j.optionalText key = .ok text? := by
  cases text? with
  | none =>
    simp [optionalText, optional?, hj, member?_eq_none h, bind, Except.bind, pure, Except.pure]
  | some text =>
    obtain ⟨hx, hmember⟩ := exists_member? h
    simp [optionalText, optional?, hj, hmember, toText, bind, Except.bind, pure, Except.pure]

end Json

@[simp] theorem DateTime.decode_encode (t : DateTime) : decode t.encode = .ok t := by
  simp [decode, encode, Json.toText, ofText?_isoText, Reading.ofOption, bind, Except.bind]

@[simp] theorem Guid.decode_encode (g : Guid) : decode g.encode = .ok g := by
  simp [decode, encode, Json.toText, ofText?_text, Reading.ofOption, bind, Except.bind]

@[simp] theorem DateTime.depth_encode (t : DateTime) : t.encode.depth = 0 := by rfl

@[simp] theorem Guid.depth_encode (g : Guid) : g.encode.depth = 0 := by rfl

/-- A time span is read back. -/
theorem TimeSpan.restores_decode (t : TimeSpan) : Restores decode t.encode t True := by
  refine .record ⟨_, rfl⟩ fun n => ?_
  exact .scalar (by simp) (Json.toInt64_int _) (.of_ok rfl (by simp))

/-! ## Values -/

/-- A value is read back, unless it is a float that is not finite. -/
theorem Value.restores_decode (v : Value) :
    Restores decode v.encode v (Ingredient.constant v).Storable := by
  cases v with
  | null => exact .scalar (.of_ok (by simp [decode, encode, pure, Except.pure]) trivial) rfl
  | float x =>
    refine .tagged ⟨_, rfl⟩ fun n => ?_
    simp only [decode, Json.variant_tagged, Json.content_some, Reading.ok_bind]
    exact (Restores.scalar (Json.recovers_toFloat x) (Json.depth_ofFloat x) n).map float
  | timeSpan t =>
    refine .tagged ⟨_, rfl⟩ fun n => ?_
    simp only [decode, Json.variant_tagged, Json.content_some, Reading.ok_bind]
    exact (t.restores_decode n).map timeSpan
  | blob bytes =>
    refine .tagged ⟨_, rfl⟩ fun n => ?_
    simp only [decode, Json.variant_tagged, Json.content_some, Reading.ok_bind]
    exact (Json.restores_toBytes bytes n).map blob
  | member typeName number =>
    refine .taggedRecord ⟨_, rfl⟩ ⟨_, rfl⟩ fun n => ?_
    simp only [decode, Json.variant_tagged, Json.content_some, Reading.ok_bind]
    exact .scalar (by simp) (Json.toText_string _)
      (.scalar (by simp) (Json.toInt64_int _) (.of_ok rfl ⟨trivial, by simp⟩))
  | bool _ | int _ | uint _ | char _ | text _ | dateTime _ | guid _ =>
    refine .tagged ⟨_, rfl⟩ fun n => .of_ok ?_ ⟨trivial, by simp⟩
    simp [decode, Json.toBool_bool, Json.toText_string, pure, Except.pure]

/-- A value that is read is no float but a finite one. -/
theorem Value.ensures_decode (j : Json) :
    (decode j).Ensures fun v => (Ingredient.constant v).Storable := by
  refine .step fun alternative => ?_
  split
  case h_1 => exact .step fun _ => .pure trivial
  case h_5 => exact .step fun body => (Json.ensures_toFloat _).bind fun x hx => .pure hx
  case h_11 =>
    exact .step fun _ => .step fun _ => .step fun _ => .step fun _ => .step fun _ => .pure trivial
  case h_13 => exact .throw _
  all_goals exact .step fun _ => .step fun _ => .pure trivial

/-- A number is read back, unless it is a float that is not finite. -/
theorem Numeric.restores_decode (n : Numeric) :
    Restores decode n.encode n (Ingredient.constant n.toValue).Storable := by
  cases n with
  | float x =>
    refine .tagged ⟨_, rfl⟩ fun n => ?_
    simp only [decode, Json.variant_tagged, Json.content_some, Reading.ok_bind]
    exact (Restores.scalar (Json.recovers_toFloat x) (Json.depth_ofFloat x) n).map float
  | int _ | uint _ =>
    refine .tagged ⟨_, rfl⟩ fun n => .of_ok ?_ ⟨trivial, by simp⟩
    simp [decode, pure, Except.pure]

/-- A number that is read is no float but a finite one. -/
theorem Numeric.ensures_decode (j : Json) :
    (decode j).Ensures fun n => (Ingredient.constant n.toValue).Storable := by
  refine .step fun alternative => ?_
  split
  case h_3 => exact .step fun body => (Json.ensures_toFloat _).bind fun x hx => .pure hx
  case h_4 => exact .throw _
  all_goals exact .step fun _ => .step fun _ => .pure trivial

/-! ## Columns -/

/-- The ingredient of a column is its name. -/
theorem Field.storable_iff {f : Field} :
    (∀ i ∈ f.ingredients, i.Storable) ↔ IsColumnName f.name := by
  simp only [ingredients, List.mem_singleton, forall_eq]
  exact Iff.rfl

theorem Field.recovers_unqualified (name : String) :
    (Reading.checked (unqualified name)).Recovers ⟨name, none⟩ (IsColumnName name) := by
  by_cases h : IsColumnName name
  · exact .of_ok (by simp [unqualified, h, Reading.checked]) h
  · exact .of_error (e := .rejected (.invalidField name))
      (by simp [unqualified, h, Reading.checked]) h

/-- A column is read back if its name is within the rules. -/
theorem Field.restores_decode (f : Field) :
    Restores decode f.encode f (∀ i ∈ f.ingredients, i.Storable) := by
  refine .congr ?_ storable_iff.symm
  refine .record ⟨_, rfl⟩ fun n => ?_
  have hsource : (f.encode.cut (n + 1)).optionalText "source" = .ok f.source :=
    Json.optionalText_of_find? rfl (by simp [encode, Function.comp_def])
  refine Recovers.congr (p := IsColumnName f.name) ?_ (by simp)
  exact .scalar (by simp) (Json.toText_string _)
    (.step hsource ((recovers_unqualified f.name).map (·.withSource f.source)))

/-- A column that is read has a name within the rules. -/
theorem Field.ensures_decode (j : Json) :
    (decode j).Ensures fun f => ∀ i ∈ f.ingredients, i.Storable := by
  refine .step fun _ => .step fun name => .step fun source => ?_
  have hchecked : (Reading.checked (unqualified name)).Ensures fun f => IsColumnName f.name := by
    unfold unqualified
    split
    · next h => exact .pure h
    · exact .throw _
  exact hchecked.bind fun f hf => .pure (storable_iff.mpr hf)

end DialectSql
