import Mathlib.Logic.Basic
import Mathlib.Data.List.Basic

/-!
# Loops that an exception leaves

A loop calls its body on one item after the other until a call throws.  What the
calls before the throw did stays done.  The rules below say what holds where the
loop stops, whether it came to its end or not, and when each of its calls met the
condition it was meant to meet.
-/

namespace RosRtems.ThrowingLoop

variable {State Item Error : Type*}
variable (body : State → Item → State × Option Error)

def forEach : List Item → State → State × Option Error
  | [], state => (state, none)
  | item :: items, state =>
      match body state item with
      | (next, none) => forEach items next
      | (next, some error) => (next, some error)

/-- Each call that the loop makes is made in a state that admits its item. -/
def Along (admits : State → Item → Prop) : List Item → State → Prop
  | [], _ => True
  | item :: items, state =>
      admits state item ∧
        ((body state item).2 = none → Along admits items (body state item).1)

section Calls

variable {body}
variable {state : State} {item : Item} {items : List Item}

theorem forEach_of_returned (hcall : (body state item).2 = none) :
    forEach body (item :: items) state = forEach body items (body state item).1 := by
  simp only [forEach]
  split
  · rename_i next heq
    rw [heq]
  · rename_i next error heq
    rw [heq] at hcall
    cases hcall

theorem forEach_of_thrown {error : Error} (hcall : (body state item).2 = some error) :
    forEach body (item :: items) state = body state item := by
  simp only [forEach]
  split
  · rename_i next heq
    rw [heq] at hcall
    cases hcall
  · rename_i next other heq
    exact heq.symm

theorem returned_of_forEach (hreturned : (forEach body (item :: items) state).2 = none) :
    (body state item).2 = none := by
  cases hcall : (body state item).2 with
  | none => rfl
  | some error =>
      rw [forEach_of_thrown hcall, hcall] at hreturned
      cases hreturned

end Calls

section Rules

variable {body}
variable {state : State} {items : List Item}

/-- The rule of each call: what every call keeps holds where the loop stops. -/
theorem forEach_keeps (kept : State → Prop)
    (hcall : ∀ state, ∀ item ∈ items, kept state → kept (body state item).1)
    (hstart : kept state) : kept (forEach body items state).1 := by
  induction items generalizing state with
  | nil => exact hstart
  | cons item items ih =>
      have hnext := hcall state item List.mem_cons_self hstart
      cases hthrown : (body state item).2 with
      | none =>
          rw [forEach_of_returned hthrown]
          exact ih (fun state item hitem => hcall state item (List.mem_cons_of_mem _ hitem))
            hnext
      | some error =>
          rw [forEach_of_thrown hthrown]
          exact hnext

theorem Along.keeps {kept : State → Prop} {admits : State → Item → Prop}
    (hcall : ∀ state, ∀ item ∈ items, kept state → admits state item →
      kept (body state item).1)
    (hstart : kept state) (halong : Along body admits items state) :
    kept (forEach body items state).1 := by
  induction items generalizing state with
  | nil => exact hstart
  | cons item items ih =>
      have hnext := hcall state item List.mem_cons_self hstart halong.1
      cases hthrown : (body state item).2 with
      | none =>
          rw [forEach_of_returned hthrown]
          exact ih (fun state item hitem => hcall state item (List.mem_cons_of_mem _ hitem))
            hnext (halong.2 hthrown)
      | some error =>
          rw [forEach_of_thrown hthrown]
          exact hnext

/-- The exact rule: where a call that is not admitted spoils what the loop keeps, and
no later call repairs it, a loop that ends unspoilt made admitted calls only. -/
theorem along_of_unspoilt (kept spoilt : State → Prop) {admits : State → Item → Prop}
    (hcall : ∀ state, ∀ item ∈ items, kept state → admits state item →
      kept (body state item).1)
    (hspoil : ∀ state, ∀ item ∈ items, kept state → ¬ admits state item →
      spoilt (body state item).1)
    (hstay : ∀ state, ∀ item ∈ items, spoilt state → spoilt (body state item).1)
    (hstart : kept state) (hfinish : ¬ spoilt (forEach body items state).1) :
    Along body admits items state := by
  induction items generalizing state with
  | nil => trivial
  | cons item items ih =>
      have hstayRest : ∀ state, ∀ item ∈ items, spoilt state → spoilt (body state item).1 :=
        fun state item hitem => hstay state item (List.mem_cons_of_mem _ hitem)
      have hadmits : admits state item := by
        by_contra hnot
        have hnext := hspoil state item List.mem_cons_self hstart hnot
        cases hthrown : (body state item).2 with
        | none =>
            rw [forEach_of_returned hthrown] at hfinish
            exact hfinish (forEach_keeps spoilt hstayRest hnext)
        | some error =>
            rw [forEach_of_thrown hthrown] at hfinish
            exact hfinish hnext
      refine ⟨hadmits, fun hreturned => ?_⟩
      rw [forEach_of_returned hreturned] at hfinish
      exact ih (fun state item hitem => hcall state item (List.mem_cons_of_mem _ hitem))
        (fun state item hitem => hspoil state item (List.mem_cons_of_mem _ hitem))
        hstayRest (hcall state item List.mem_cons_self hstart hadmits) hfinish

theorem forEach_returned_keeps (kept : State → Prop)
    (hcall : ∀ state, ∀ item ∈ items, kept state → (body state item).2 = none →
      kept (body state item).1)
    (hstart : kept state) (hreturned : (forEach body items state).2 = none) :
    kept (forEach body items state).1 := by
  induction items generalizing state with
  | nil => exact hstart
  | cons item items ih =>
      cases hthrown : (body state item).2 with
      | none =>
          rw [forEach_of_returned hthrown] at hreturned ⊢
          have hnext := hcall state item List.mem_cons_self hstart hthrown
          exact ih (fun state item hitem => hcall state item (List.mem_cons_of_mem _ hitem))
            hnext hreturned
      | some error =>
          rw [forEach_of_thrown hthrown, hthrown] at hreturned
          cases hreturned

/-- The rule of the return: where the verdict on each item does not depend on the
calls for the others, the loop returns exactly when every verdict is good. -/
theorem forEach_returns_iff (kept : State → Prop) {verdict : State → Item → Prop}
    (hkeep : ∀ state, ∀ item ∈ items, kept state → kept (body state item).1)
    (hcall : ∀ state, ∀ item ∈ items, kept state →
      ((body state item).2 = none ↔ verdict state item))
    (hframe : ∀ state, ∀ item ∈ items, kept state → (body state item).2 = none →
      ∀ other, verdict (body state item).1 other ↔ verdict state other)
    (hstart : kept state) :
    (forEach body items state).2 = none ↔ ∀ item ∈ items, verdict state item := by
  induction items generalizing state with
  | nil => simp [forEach]
  | cons item items ih =>
      rw [List.forall_mem_cons, ← hcall state item List.mem_cons_self hstart]
      cases hthrown : (body state item).2 with
      | none =>
          have hnext := hkeep state item List.mem_cons_self hstart
          rw [forEach_of_returned hthrown,
            ih (fun state item hitem => hkeep state item (List.mem_cons_of_mem _ hitem))
              (fun state item hitem => hcall state item (List.mem_cons_of_mem _ hitem))
              (fun state item hitem => hframe state item (List.mem_cons_of_mem _ hitem)) hnext]
          simp only [true_and]
          exact forall₂_congr fun other _ =>
            hframe state item List.mem_cons_self hstart hthrown other
      | some error =>
          rw [forEach_of_thrown hthrown, hthrown]
          simp

/-- The rule of the finished items: what each call that returns makes true of its item,
and no later call undoes, is true of every item once the loop has returned. -/
theorem forEach_done (kept : State → Prop) (done : State → Item → Prop)
    (hkeep : ∀ state, ∀ item ∈ items, kept state → kept (body state item).1)
    (hcall : ∀ state, ∀ item ∈ items, kept state → (body state item).2 = none →
      done (body state item).1 item)
    (hstay : ∀ state, ∀ item ∈ items, kept state → ∀ other, done state other →
      done (body state item).1 other)
    (hstart : kept state) (hreturned : (forEach body items state).2 = none) :
    ∀ item ∈ items, done (forEach body items state).1 item := by
  induction items generalizing state with
  | nil => simp
  | cons item items ih =>
      cases hthrown : (body state item).2 with
      | some error =>
          rw [forEach_of_thrown hthrown, hthrown] at hreturned
          cases hreturned
      | none =>
          rw [forEach_of_returned hthrown] at hreturned ⊢
          have hnext := hkeep state item List.mem_cons_self hstart
          have hdone := hcall state item List.mem_cons_self hstart hthrown
          have hfirst := forEach_keeps (fun state => kept state ∧ done state item)
            (fun state other hother hstate =>
              ⟨hkeep state other (List.mem_cons_of_mem _ hother) hstate.1,
                hstay state other (List.mem_cons_of_mem _ hother) hstate.1 item hstate.2⟩)
            ⟨hnext, hdone⟩
          exact List.forall_mem_cons.mpr ⟨hfirst.2, ih
            (fun state item hitem => hkeep state item (List.mem_cons_of_mem _ hitem))
            (fun state item hitem => hcall state item (List.mem_cons_of_mem _ hitem))
            (fun state item hitem => hstay state item (List.mem_cons_of_mem _ hitem))
            hnext hreturned⟩

end Rules

end RosRtems.ThrowingLoop
