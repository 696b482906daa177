import RosRtems.Serialization.RoundTrip

/-!
# The size set aside for a message

The estimate goes through the message as the serialization does, but at its own alignment
and with whole strings.  It never falls behind what is written.
-/

namespace RosRtems.Serialization

open RosRtems.Alignment
open RosRtems.ByteOrder
open RosRtems.WireLayout
open RosRtems.WireLayout.Layout

/-! ## Where data stop -/

section Stops

variable {offset current : ℕ}

theorem stop_aligned (size : ℕ) (bytes : List UInt8) :
    (Cdr.aligned size bytes).stop offset = alignedEnd size bytes.length offset := by
  rw [Cdr.aligned, stop_append, stop_gap, stop_symbols, alignedEnd]

theorem stop_scalar (order : Endianness) (size value : ℕ) :
    (Cdr.scalar order size value).stop offset = alignedEnd size size offset := by
  rw [Cdr.scalar, stop_aligned, Endianness.length_bytes]

theorem alignedEnd_mono {size total more : ℕ} (hsize : size.isPowerOfTwo) (htotal : total ≤ more)
    (hle : offset ≤ current) : alignedEnd size total offset ≤ alignedEnd size more current :=
  Nat.add_le_add (add_padding_mono hsize hle) htotal

theorem le_alignedEnd (size total : ℕ) : current ≤ alignedEnd size total current :=
  (Nat.le_add_right _ _).trans (Nat.le_add_right _ _)

theorem dvd_alignedEnd (offset : ℕ) {size total : ℕ} (hsize : size.isPowerOfTwo)
    (htotal : size ∣ total) : size ∣ alignedEnd size total offset := Nat.dvd_add (dvd_add_padding hsize) htotal

@[simp]
theorem alignedEnd_one (total current : ℕ) : alignedEnd 1 total current = current + total := by
  rw [alignedEnd, padding_of_dvd Nat.isPowerOfTwo_one (Nat.one_dvd current), Nat.add_zero]

/-- From an aligned offset on nothing is left free between numbers. -/
theorem stop_each_scalar_of_dvd (order : Endianness) {size : ℕ} (hsize : size.isPowerOfTwo)
    (values : List (BitVec (8 * size))) (hdvd : size ∣ offset) :
    (each (fun value => Cdr.scalar order size value.toNat) values).stop offset =
      offset + values.length * size := by
  rw [← each_map (Cdr.scalar order size), stop,
    each_scalar_of_dvd order hsize _ hdvd, symbols, List.length_map, List.flatMap_map,
    length_flatMap_bytes]

/-- Numbers are aligned once, before the first of them. -/
theorem stop_each_scalar (order : Endianness) {size : ℕ} (hsize : size.isPowerOfTwo)
    {values : List (BitVec (8 * size))} (hvalues : values ≠ []) :
    (each (fun value => Cdr.scalar order size value.toNat) values).stop offset =
      alignedEnd size (size * values.length) offset := by
  rw [← each_map (Cdr.scalar order size),
    ← aligned_flatMap order hsize (by simpa using hvalues), stop_aligned, List.flatMap_map,
    length_flatMap_bytes, Nat.mul_comm]

/-- The string is sent up to its first zero, and the estimate takes all of it. -/
theorem stop_string (order : Endianness) (s : List UInt8) (hle : offset ≤ current) :
    (Cdr.string order s).stop offset ≤ stringEnd 1 current s := by
  have hcut : (cString s).length ≤ s.length := (List.takeWhile_sublist _).length_le
  have halign := alignedEnd_mono isPowerOfTwo_four (Nat.le_refl 4) hle
  rw [Cdr.string, stop_append, stop_scalar, stop_symbols, stringEnd, List.length_append,
    List.length_singleton]
  omega

theorem stop_wideString (order : Endianness) (s : List (BitVec 16)) (hle : offset ≤ current) :
    (Cdr.wideString order (u16stringToWstring s)).stop offset ≤ stringEnd 4 current s := by
  have hcut : (wideCString (u16stringToWstring s)).length ≤ s.length := by
    have hsub := (List.takeWhile_sublist (p := (· ≠ 0)) (l := u16stringToWstring s)).length_le
    rwa [u16stringToWstring, List.length_map] at hsub
  have halign := alignedEnd_mono isPowerOfTwo_four (Nat.le_refl 4) hle
  have hdvd := dvd_alignedEnd offset isPowerOfTwo_four (Nat.dvd_refl 4)
  rw [Cdr.wideString, stop_append, stop_scalar, stringEnd,
    stop_each_scalar_of_dvd order isPowerOfTwo_four _ hdvd]
  omega

end Stops

/-! ## Members by shape -/

section Shapes

variable {α : Type} (order : Endianness) {item : α → Layout UInt8} {offset current : ℕ}

/-- Items of one size, one behind the other. -/
theorem stop_le_nextFieldAlign {itemSize : ℕ} (hsize : itemSize.isPowerOfTwo)
    (hitem : ∀ as : List α, as ≠ [] → ∀ offset,
      (each item as).stop offset = alignedEnd itemSize (itemSize * as.length) offset)
    (hle : offset ≤ current) :
    ∀ (shape : Shape) (held : shape.Holder α),
      (shape.layout order item held).stop offset ≤ nextFieldAlign itemSize shape held current
  | .single, a => by
      have hone := hitem [a] (List.cons_ne_nil _ _) offset
      rw [each_cons, each_nil, append_nothing, List.length_singleton, Nat.mul_one] at hone
      exact hone.trans_le (alignedEnd_mono hsize (Nat.le_refl _) hle)
  | .array size positive, values => by
      have hsome : values.toList ≠ [] := by
        rw [← List.length_pos_iff, values.toList_length]
        exact positive
      refine (hitem values.toList hsome offset).trans_le ?_
      rw [values.toList_length]
      exact alignedEnd_mono hsize (Nat.le_refl _) hle
  | .bounded _ _, values | .unbounded, values => by
      have hcount := alignedEnd_mono isPowerOfTwo_four (Nat.le_refl 4) hle
      change (Cdr.scalar order 4 values.length ++ each item values).stop offset ≤ _
      rw [stop_append, stop_scalar]
      cases values with
      | nil => exact hcount
      | cons a rest =>
          refine (hitem (a :: rest) (List.cons_ne_nil _ _) _).trans_le ?_
          exact alignedEnd_mono hsize (Nat.le_refl _) hcount

/-- Items that are gone through one by one, with a count before those of a sequence. -/
def foldShape (step : ℕ → α → ℕ) : (shape : Shape) → shape.Holder α → ℕ → ℕ
  | .single, a, current => step current a
  | .array _ _, values, current => values.toList.foldl step current
  | .bounded _ _, values, current | .unbounded, values, current =>
      values.foldl step (alignedEnd 4 4 current)

/-- Items none of which stops behind its own estimate. -/
theorem stop_le_foldShape {step : ℕ → α → ℕ}
    (hitem : ∀ a, ∀ {offset current : ℕ}, offset ≤ current →
      (item a).stop offset ≤ step current a)
    (hle : offset ≤ current) :
    ∀ (shape : Shape) (held : shape.Holder α),
      (shape.layout order item held).stop offset ≤ foldShape step shape held current
  | .single, a => hitem a hle
  | .array _ _, _ => stop_each_le (fun a _ => hitem a) hle
  | .bounded _ _, values | .unbounded, values => by
      have hcount := alignedEnd_mono isPowerOfTwo_four (Nat.le_refl 4) hle
      change (Cdr.scalar order 4 values.length ++ each item values).stop offset ≤ _
      rw [stop_append, stop_scalar]
      exact stop_each_le (fun a _ => hitem a) hcount

theorem nextFieldAlignString_eq (characterSize : ℕ) (shape : Shape)
    (held : shape.Holder (List α)) (current : ℕ) :
    nextFieldAlignString characterSize shape held current =
      foldShape (stringEnd characterSize) shape held current := by
  cases shape <;> rfl

theorem estimateMessages_eq (estimate : α → ℕ → ℕ) (shape : Shape) (held : shape.Holder α)
    (current : ℕ) :
    estimateMessages estimate shape held current =
      foldShape (fun current a => current + estimate a current) shape held current := by
  cases shape <;> rfl

end Shapes

/-! ## The estimate -/

section Estimate

variable (order : Endianness)

theorem stop_each_byte {α : Type} (byte : α → UInt8) (as : List α) (offset : ℕ) :
    (each (fun a => symbols [byte a]) as).stop offset = alignedEnd 1 (1 * as.length) offset := by
  rw [each_symbols, stop_symbols, List.length_map, alignedEnd_one, Nat.one_mul]

/-- A member that starts no later than the estimate does stops no later either. -/
theorem stop_field_le {offset current : ℕ} (hle : offset ≤ current) :
    ∀ (type : FieldType) (shape : Shape) (held : shape.Holder type.Value),
      (shape.layout order (type.layout order) held).stop offset ≤
        estimateField type shape held current
  | .bool, shape, held =>
      stop_le_nextFieldAlign order Nat.isPowerOfTwo_one
        (fun bs _ => stop_each_byte boolByte bs) hle shape held
  | .octet, shape, held =>
      stop_le_nextFieldAlign order Nat.isPowerOfTwo_one
        (fun cs _ => stop_each_byte id cs) hle shape held
  | .scalar kind, shape, held =>
      stop_le_nextFieldAlign order kind.isPowerOfTwo_size
        (fun _ hsome _ => stop_each_scalar order kind.isPowerOfTwo_size hsome) hle shape held
  | .string _, shape, held =>
      (stop_le_foldShape order (fun s => stop_string order s) hle shape held).trans_eq
        (nextFieldAlignString_eq 1 shape held current).symm
  | .wstring _, shape, held =>
      (stop_le_foldShape order (fun s => stop_wideString order s) hle shape held).trans_eq
        (nextFieldAlignString_eq 4 shape held current).symm

/-- The members stop in turn where the estimate is, or before. -/
theorem stop_members_le (members : Members) : ∀ (message : members.Record) {offset current : ℕ},
    offset ≤ current →
      (members.layout order message).stop offset ≤ estimateMembers members message current := by
  induction members with
  | nil => exact fun _ _ _ hle => hle
  | field type shape _ rest ihRest =>
      intro message offset current hle
      rw [Members.layout, stop_append]
      exact ihRest message.2 (stop_field_le order hle type shape message.1)
  | message sub shape _ rest ihSub ihRest =>
      intro message offset current hle
      rw [Members.layout, stop_append, estimateMembers, estimateMessages_eq]
      apply ihRest
      apply stop_le_foldShape order _ hle
      intro held offset current hle
      have hheld := ihSub held hle
      omega

/-- The estimate of a type that is not plain is at least the size of the payload. -/
theorem payloadSize_le_estimate (members : Members) (message : members.Record) :
    members.payloadSize order message ≤
      if members.memberCount ≠ 0 then 4 + (estimateMembers members message 0 - 0) else 5 := by
  unfold Members.payloadSize Members.bodyLayout
  split
  · have hstop := stop_members_le order members message (Nat.le_refl 0)
    rw [stop, Nat.zero_add] at hstop
    exact Nat.add_le_add_left hstop 4
  · exact Nat.le_refl 5

end Estimate

end RosRtems.Serialization
