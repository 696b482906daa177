import RosRtems.Serialization.SerializedSize
import Mathlib.Logic.Function.Iterate

/-!
# The size of a type

What is set aside for a type whose messages are bounded is enough for each message that
keeps within the bounds of its sequences.  A plain type is such a type, so that the estimate
may take that size for it.
-/

namespace RosRtems.Serialization

open RosRtems.Alignment
open RosRtems.ByteOrder
open RosRtems.WireLayout
open RosRtems.WireLayout.Layout

/-! ## Bounds -/

/-- The sequences keep to their bounds, as bounded vectors do. -/
def Shape.InBounds {α : Type} (p : α → Prop) : (shape : Shape) → shape.Holder α → Prop
  | single, a => p a
  | array _ _, values => ∀ a ∈ values.toList, p a
  | bounded size _, values => values.length ≤ size ∧ ∀ a ∈ values, p a
  | unbounded, values => ∀ a ∈ values, p a

/-- The sequences of a message and of those nested in it keep to their bounds. -/
def Members.InBounds : (members : Members) → members.Record → Prop
  | nil, _ => True
  | field _ shape _ rest, record =>
      shape.InBounds (fun _ => True) record.1 ∧ rest.InBounds record.2
  | message sub shape _ rest, record =>
      shape.InBounds sub.InBounds record.1 ∧ rest.InBounds record.2

/-! ## What sizing does -/

namespace Sizing

/-- The alignment goes on and the flags are only ever cleared. -/
structure Grows (s s' : Sizing) : Prop where
  current : s.currentAlignment ≤ s'.currentAlignment
  bound : s'.maxSizeBound = true → s.maxSizeBound = true
  plain : s'.isPlain = true → s.isPlain = true
  sane : (s.isPlain = true → s.maxSizeBound = true) → s'.isPlain = true → s'.maxSizeBound = true

variable {s s' s'' : Sizing}

theorem Grows.refl : s.Grows s := ⟨Nat.le_refl _, id, id, id⟩

theorem Grows.trans (hfirst : s.Grows s') (hsecond : s'.Grows s'') : s.Grows s'' where
  current := hfirst.current.trans hsecond.current
  bound h := hfirst.bound (hsecond.bound h)
  plain h := hfirst.plain (hsecond.plain h)
  sane h := hsecond.sane (hfirst.sane h)

theorem grows_enter (shape : Shape) (offset : ℕ) : s.Grows (s.enter shape offset) where
  current := by
    unfold enter
    dsimp only
    split
    · exact le_alignedEnd 4 4
    · exact Nat.le_refl _
  bound h := (Bool.and_eq_true_iff.mp h).1
  plain h := (Bool.and_eq_true_iff.mp h).1
  sane := by
    intro hsane hplain
    unfold enter at hplain ⊢
    simp only [Bool.and_eq_true, Bool.not_eq_true', Bool.and_eq_false_iff, Bool.or_eq_false_iff]
      at hplain ⊢
    exact ⟨hsane hplain.1, hplain.2.imp_right And.left⟩

theorem le_iterate_string (characterSize upperBound n current : ℕ) :
    current ≤ (fun current => alignedEnd 4 4 current + characterSize * (upperBound + 1))^[n]
      current := by
  induction n generalizing current with
  | zero => exact Nat.le_refl _
  | succ n ih =>
      rw [Function.iterate_succ_apply]
      exact ((le_alignedEnd 4 4).trans (Nat.le_add_right _ _)).trans (ih _)

/-- Strings have no bound that the flag would keep, whatever their own one is. -/
theorem grows_strings (characterSize upperBound n : ℕ) :
    s.Grows (s.strings characterSize upperBound n) where
  current := le_iterate_string ..
  bound h := nomatch h
  plain h := nomatch h
  sane _ h := nomatch h

theorem grows_field (type : FieldType) (n : ℕ) : s.Grows (s.field type n) := by
  cases type with
  | bool | octet => exact ⟨Nat.le_add_right _ _, id, id, id⟩
  | scalar kind => exact ⟨le_alignedEnd _ _, id, id, id⟩
  | string upperBound => exact grows_strings 1 upperBound n
  | wstring upperBound => exact grows_strings 4 upperBound n

/-- The end of a type changes at most whether it is plain. -/
theorem leave_currentAlignment (initial : ℕ) :
    (s.leave initial).currentAlignment = s.currentAlignment := by
  unfold leave
  dsimp only
  split <;> rfl

theorem leave_maxSizeBound (initial : ℕ) : (s.leave initial).maxSizeBound = s.maxSizeBound := by
  unfold leave
  dsimp only
  split <;> rfl

theorem grows_leave (initial : ℕ) : s.Grows (s.leave initial) := by
  have hplain : (s.leave initial).isPlain = true → s.isPlain = true := by
    intro h
    unfold leave at h
    dsimp only at h
    split at h
    case isTrue hcond => exact (Bool.and_eq_true_iff.mp hcond).2
    case isFalse => exact h
  exact
    { current := (leave_currentAlignment initial).ge
      bound := fun h => by rwa [leave_maxSizeBound] at h
      plain := hplain
      sane := fun hsane h => by
        rw [leave_maxSizeBound]
        exact hsane (hplain h) }

/-- One message ends where its members do. -/
theorem nested_currentAlignment {inner : Sizing → Sizing}
    (hinner : ∀ s : Sizing, s.Grows (inner s)) :
    (nested inner s).currentAlignment =
      (inner { s with lastMemberSize := 0, lastOffset := 0 }).currentAlignment := by
  have hgrows := (hinner { s with lastMemberSize := 0, lastOffset := 0 }).current
  unfold nested
  dsimp only
  rw [leave_currentAlignment]
  exact Nat.add_sub_cancel' hgrows

theorem nested_maxSizeBound (inner : Sizing → Sizing) :
    (nested inner s).maxSizeBound =
      (inner { s with lastMemberSize := 0, lastOffset := 0 }).maxSizeBound :=
  leave_maxSizeBound _

theorem grows_nested {inner : Sizing → Sizing} (hinner : ∀ s : Sizing, s.Grows (inner s)) :
    s.Grows (nested inner s) := by
  have hgrows := (hinner { s with lastMemberSize := 0, lastOffset := 0 }).trans
    (grows_leave s.currentAlignment)
  exact
    { current := Nat.le_add_right _ _
      bound := hgrows.bound
      plain := hgrows.plain
      sane := hgrows.sane }

theorem grows_iterate {step : Sizing → Sizing} (hstep : ∀ s : Sizing, s.Grows (step s)) (n : ℕ) :
    ∀ {s : Sizing}, s.Grows (step^[n] s) := by
  induction n with
  | zero => exact Grows.refl
  | succ n ih =>
      intro s
      rw [Function.iterate_succ_apply]
      exact (hstep s).trans ih

/-- Whatever its members are, a type never goes back. -/
theorem grows_members (ms : Members) : ∀ {s : Sizing}, s.Grows (members ms s) := by
  induction ms with
  | nil => exact Grows.refl
  | field type shape offset rest ihRest =>
      intro s
      exact (grows_enter shape offset).trans ((grows_field type _).trans ihRest)
  | message sub shape offset rest ihSub ihRest =>
      intro s
      apply (grows_enter shape offset).trans
      exact (grows_iterate (fun _ => grows_nested fun _ => ihSub) _).trans ihRest

/-! ## Before a member -/

theorem enter_single (offset : ℕ) :
    (s.enter .single offset).currentAlignment = s.currentAlignment := rfl

theorem enter_array {size : ℕ} (positive : 0 < size) (offset : ℕ) :
    (s.enter (.array size positive) offset).currentAlignment = s.currentAlignment := by
  have hsome : (size == 0) = false := beq_false_of_ne (Nat.ne_of_gt positive)
  simp only [enter, arraySize, Shape.isArray, Shape.arraySize, Shape.isUpperBound, if_true, hsome,
    Bool.or_false, Bool.and_false, Bool.false_eq_true, if_false]

theorem enter_bounded {size : ℕ} (positive : 0 < size) (offset : ℕ) :
    (s.enter (.bounded size positive) offset).currentAlignment =
      alignedEnd 4 4 s.currentAlignment := by
  simp only [enter, Shape.isArray, Shape.isUpperBound, Bool.or_true, Bool.and_true, if_true]

theorem enter_unbounded (offset : ℕ) : (s.enter .unbounded offset).maxSizeBound = false :=
  Bool.and_false _

/-- A sequence within its bound takes no more than the array that the sizing takes it for. -/
theorem nextFieldAlign_le {α : Type} {itemSize offset : ℕ} (hsize : itemSize.isPowerOfTwo) :
    ∀ (shape : Shape) (held : shape.Holder α), shape.InBounds (fun _ => True) held →
      (s.enter shape offset).maxSizeBound = true →
      nextFieldAlign itemSize shape held s.currentAlignment ≤
        alignedEnd itemSize (arraySize shape * itemSize) (s.enter shape offset).currentAlignment
  | .single, _, _, _ => by
      rw [enter_single, show arraySize .single = 1 from rfl, Nat.one_mul]
      exact Nat.le_refl _
  | .array size positive, _, _, _ => by
      rw [enter_array, show arraySize (.array size positive) = size from rfl, Nat.mul_comm]
      exact Nat.le_refl _
  | .bounded size positive, values, hbounds, _ => by
      rw [enter_bounded, show arraySize (.bounded size positive) = size from rfl]
      unfold nextFieldAlign
      dsimp only
      split
      · exact le_alignedEnd _ _
      · apply alignedEnd_mono hsize _ (Nat.le_refl _)
        rw [Nat.mul_comm]
        exact Nat.mul_le_mul_right itemSize hbounds.1
  | .unbounded, _, _, hbound => by
      rw [enter_unbounded] at hbound
      cases hbound

theorem stop_field_le {offset start : ℕ} (order : Endianness) (hle : start ≤ s.currentAlignment)
    (type : FieldType) (shape : Shape) (held : shape.Holder type.Value)
    (hbounds : shape.InBounds (fun _ => True) held)
    (hbound : ((s.enter shape offset).field type (arraySize shape)).maxSizeBound = true) :
    (shape.layout order (type.layout order) held).stop start ≤
      ((s.enter shape offset).field type (arraySize shape)).currentAlignment := by
  have hestimate := Serialization.stop_field_le order hle type shape held
  have henter := (grows_field type (arraySize shape)).bound hbound
  cases type with
  | bool | octet =>
      have hitems := nextFieldAlign_le Nat.isPowerOfTwo_one shape held hbounds henter
      rw [alignedEnd_one, Nat.mul_one] at hitems
      exact hestimate.trans hitems
  | scalar kind =>
      exact hestimate.trans (nextFieldAlign_le kind.isPowerOfTwo_size shape held hbounds henter)
  | string _ => cases hbound
  | wstring _ => cases hbound

/-! ## Messages of messages -/

section Nested

variable {α : Type} {item : α → Layout UInt8} {inner : Sizing → Sizing} {p : α → Prop}

/-- One run of the sizing is enough for each message. -/
def Covers (inner : Sizing → Sizing) (p : α → Prop) (item : α → Layout UInt8) : Prop :=
  ∀ a, p a → ∀ (s : Sizing) (start : ℕ), start ≤ s.currentAlignment →
    (inner s).maxSizeBound = true → (item a).stop start ≤ (inner s).currentAlignment

theorem stop_nested_le (hinner : ∀ s : Sizing, s.Grows (inner s)) (hcovers : Covers inner p item)
    {a : α} (ha : p a) {start : ℕ} (hle : start ≤ s.currentAlignment)
    (hbound : (nested inner s).maxSizeBound = true) :
    (item a).stop start ≤ (nested inner s).currentAlignment := by
  rw [nested_maxSizeBound] at hbound
  rw [nested_currentAlignment hinner]
  exact hcovers a ha _ start hle hbound

/-- As many runs as there may be messages are enough for those that there are. -/
theorem stop_each_nested_le (hinner : ∀ s : Sizing, s.Grows (inner s))
    (hcovers : Covers inner p item) :
    ∀ {as : List α} {n : ℕ}, (∀ a ∈ as, p a) → as.length ≤ n → ∀ {s : Sizing} {start : ℕ},
      start ≤ s.currentAlignment → ((nested inner)^[n] s).maxSizeBound = true →
        (each item as).stop start ≤ ((nested inner)^[n] s).currentAlignment
  | [], n, _, _, _, _, hle, _ =>
      hle.trans (grows_iterate (fun _ => grows_nested hinner) n).current
  | a :: as, n + 1, hall, hlength, s, start, hle, hbound => by
      rw [Function.iterate_succ_apply] at hbound ⊢
      rw [each_cons, stop_append]
      have hrest : ((nested inner s)).maxSizeBound = true :=
        (grows_iterate (fun _ => grows_nested hinner) n).bound hbound
      have hfirst := stop_nested_le hinner hcovers (hall a (List.mem_cons_self ..)) hle hrest
      exact stop_each_nested_le hinner hcovers (fun b hb => hall b (List.mem_cons_of_mem _ hb))
        (Nat.le_of_succ_le_succ hlength) hfirst hbound

theorem stop_messages_le (order : Endianness) (hinner : ∀ s : Sizing, s.Grows (inner s))
    (hcovers : Covers inner p item) {start offset : ℕ} (hle : start ≤ s.currentAlignment) :
    ∀ (shape : Shape) (held : shape.Holder α), shape.InBounds p held →
      ((nested inner)^[arraySize shape] (s.enter shape offset)).maxSizeBound = true →
      (shape.layout order item held).stop start ≤
        ((nested inner)^[arraySize shape] (s.enter shape offset)).currentAlignment
  | .single, _, hbounds, hbound =>
      stop_nested_le (s := s.enter .single offset) hinner hcovers hbounds hle hbound
  | .array size positive, values, hbounds, hbound => by
      apply stop_each_nested_le hinner hcovers hbounds values.toList_length.le _ hbound
      rwa [enter_array]
  | .bounded size positive, values, hbounds, hbound => by
      change (Cdr.scalar order 4 values.length ++ each item values).stop start ≤ _
      rw [stop_append, stop_scalar]
      apply stop_each_nested_le hinner hcovers hbounds.2 hbounds.1 _ hbound
      rw [enter_bounded]
      exact alignedEnd_mono isPowerOfTwo_four (Nat.le_refl 4) hle
  | .unbounded, _, _, hbound => by
      have henter := (grows_iterate (fun _ => grows_nested hinner) _).bound hbound
      rw [enter_unbounded] at henter
      cases henter

end Nested

/-- The size of a type is enough for each of its messages within bounds. -/
theorem covers_members (order : Endianness) (ms : Members) :
    Covers (members ms) ms.InBounds (ms.layout order) := by
  induction ms with
  | nil => exact fun _ _ _ _ hle _ => hle
  | field type shape offset rest ihRest =>
      intro record hbounds s start hle hbound
      have hfield := (grows_members rest).bound hbound
      rw [Members.layout, stop_append]
      exact ihRest record.2 hbounds.2 _ _
        (stop_field_le order hle type shape record.1 hbounds.1 hfield) hbound
  | message sub shape offset rest ihSub ihRest =>
      intro record hbounds s start hle hbound
      have hnested := (grows_members rest).bound hbound
      rw [Members.layout, stop_append]
      exact ihRest record.2 hbounds.2 _ _
        (stop_messages_le order (fun _ => grows_members sub) ihSub hle shape record.1 hbounds.1
          hnested) hbound

/-! ## Plain types -/

theorem enter_not_plain {size : ℕ} (positive : 0 < size) (offset : ℕ) :
    (s.enter (.bounded size positive) offset).isPlain = false := by
  simp only [enter, Shape.isArray, Shape.isUpperBound, Bool.or_true, Bool.and_true, Bool.not_true,
    Bool.and_false]

theorem enter_unbounded_not_plain (offset : ℕ) : (s.enter .unbounded offset).isPlain = false :=
  Bool.and_false _

/-- A plain member is no sequence. -/
theorem inBounds_of_plain {α : Type} {p : α → Prop} {offset : ℕ} :
    ∀ (shape : Shape) (held : shape.Holder α), (s.enter shape offset).isPlain = true →
      (0 < arraySize shape → ∀ a, p a) → shape.InBounds p held
  | .single, a, _, hall => hall Nat.one_pos a
  | .array _ positive, _, _, hall => fun a _ => hall positive a
  | .bounded _ positive, _, hplain, _ => by
      rw [enter_not_plain] at hplain
      cases hplain
  | .unbounded, _, hplain, _ => by
      rw [enter_unbounded_not_plain] at hplain
      cases hplain

theorem inner_plain_of_iterate {inner : Sizing → Sizing} (hinner : ∀ s : Sizing, s.Grows (inner s))
    {n : ℕ} (hpositive : 0 < n) (hplain : ((nested inner)^[n] s).isPlain = true) :
    (inner { s with lastMemberSize := 0, lastOffset := 0 }).isPlain = true := by
  cases n with
  | zero => exact absurd hpositive (Nat.lt_irrefl 0)
  | succ n =>
      rw [Function.iterate_succ_apply] at hplain
      have hfirst := (grows_iterate (fun _ => grows_nested hinner) n).plain hplain
      exact (grows_leave _).plain hfirst

/-- A plain type has no sequences, so that its messages cannot leave their bounds. -/
theorem members_inBounds (ms : Members) : ∀ {s : Sizing}, (members ms s).isPlain = true →
    ∀ record : ms.Record, ms.InBounds record := by
  induction ms with
  | nil => exact fun _ _ => trivial
  | field type shape offset rest ihRest =>
      intro s hplain record
      have hfield := (grows_members rest).plain hplain
      have henter := (grows_field type _).plain hfield
      exact ⟨inBounds_of_plain shape record.1 henter fun _ _ => trivial, ihRest hplain record.2⟩
  | message sub shape offset rest ihSub ihRest =>
      intro s hplain record
      have hsub : ∀ s : Sizing, s.Grows (members sub s) := fun _ => grows_members sub
      have hnested := (grows_members rest).plain hplain
      have henter := (grows_iterate (fun _ => grows_nested hsub) _).plain hnested
      refine ⟨inBounds_of_plain shape record.1 henter fun hpositive => ?_, ihRest hplain record.2⟩
      exact ihSub (inner_plain_of_iterate hsub hpositive hnested)

end Sizing

/-! ## The type support of a type -/

section TypeSupport

variable {members : Members} {message : members.Record}

theorem typeSizing_of_some (hsome : members.memberCount ≠ 0) :
    typeSizing members = Sizing.leave 0 (Sizing.members members ⟨0, 0, 0, true, true⟩) :=
  if_pos hsome

theorem bound_of_plain (hplain : (typeSizing members).isPlain = true) :
    (typeSizing members).maxSizeBound = true := by
  unfold typeSizing at hplain ⊢
  split at hplain
  case isTrue hsome =>
    rw [if_pos hsome]
    exact ((Sizing.grows_members members).trans (Sizing.grows_leave 0)).sane (fun _ => rfl) hplain
  case isFalse hnone =>
    rw [if_neg hnone]

theorem inBounds_of_plain_type (hplain : (typeSizing members).isPlain = true) :
    members.InBounds message := by
  by_cases hsome : members.memberCount ≠ 0
  · rw [typeSizing_of_some hsome] at hplain
    exact Sizing.members_inBounds members ((Sizing.grows_leave 0).plain hplain) message
  · obtain rfl := Members.eq_nil_of_memberCount (not_not.mp hsome)
    trivial

theorem payloadSize_le_typeSize (order : Endianness)
    (hsmall : (typeSizing members).currentAlignment + 7 < 2 ^ 32)
    (hbound : (typeSizing members).maxSizeBound = true) (hbounds : members.InBounds message) :
    members.payloadSize order message ≤ typeSize members := by
  have hsize : members.payloadSize order message ≤ 4 + (typeSizing members).currentAlignment := by
    unfold Members.payloadSize Members.bodyLayout
    by_cases hsome : members.memberCount ≠ 0
    · rw [typeSizing_of_some hsome, Sizing.leave_maxSizeBound] at hbound
      rw [if_pos hsome, typeSizing_of_some hsome, Sizing.leave_currentAlignment]
      have hstop := Sizing.covers_members order members message hbounds _ 0 (Nat.le_refl 0) hbound
      rw [stop, Nat.zero_add] at hstop
      exact Nat.add_le_add_left hstop 4
    · rw [if_neg hsome, typeSizing, if_neg hsome]
      exact Nat.le_refl 5
  have hwhole : typeSize members = (4 + (typeSizing members).currentAlignment + 3) / 4 * 4 := by
    unfold typeSize
    dsimp only
    rw [Nat.mod_eq_of_lt (a := 4 + _) (by omega), Nat.mod_eq_of_lt (by omega)]
  omega

/-- A message of a bounded type fits in the size of the type. -/
theorem bounded_type_fits (host : Endianness) {buffer : List UInt8}
    (hsmall : (typeSizing members).currentAlignment + 7 < 2 ^ 32)
    (hbound : (typeSizing members).maxSizeBound = true) (hbounds : members.InBounds message)
    (hfits : members.Fits message) (hroom : typeSize members ≤ buffer.length) :
    ∃ payload, serialize host members message buffer = .ok payload :=
  (serialize_succeeds_iff host hfits).mpr
    ((payloadSize_le_typeSize host hsmall hbound hbounds).trans hroom)

/-- A buffer of the estimated size has room for the message. -/
theorem estimate_suffices (host : Endianness) {buffer : List UInt8}
    (hsmall : (typeSizing members).isPlain = true →
      (typeSizing members).currentAlignment + 7 < 2 ^ 32)
    (hfits : members.Fits message)
    (hroom : getEstimatedSerializedSize members message ≤ buffer.length) :
    ∃ payload, serialize host members message buffer = .ok payload := by
  apply (serialize_succeeds_iff host hfits).mpr
  refine le_trans ?_ hroom
  unfold getEstimatedSerializedSize
  split
  case isTrue hplain =>
    exact payloadSize_le_typeSize host (hsmall hplain) (bound_of_plain hplain)
      (inBounds_of_plain_type hplain)
  case isFalse => exact payloadSize_le_estimate host members message

end TypeSupport

theorem track_estimate_suffices :
    ∃ payload, serialize .big track someTrack (List.replicate 36 0) = .ok payload :=
  estimate_suffices .big (fun hplain => nomatch hplain) track_fits (by decide)

def polyline : Members :=
  .message point (.bounded 2 Nat.two_pos) 0 (.field (.scalar .float64) .single 32 .nil)

def somePolyline : polyline.Record := ([(7, 300, ())], 5, ())

theorem polyline_fits : polyline.Fits somePolyline :=
  ⟨⟨by decide, fun _ _ => ⟨trivial, trivial, trivial⟩⟩, trivial, trivial⟩

theorem polyline_type_fits :
    ∃ payload, serialize .little polyline somePolyline (List.replicate 28 0) = .ok payload :=
  bounded_type_fits .little (by decide) (by decide)
    ⟨⟨by decide, fun _ _ => ⟨trivial, trivial, trivial⟩⟩, trivial, trivial⟩ polyline_fits
    (by decide)

end RosRtems.Serialization
