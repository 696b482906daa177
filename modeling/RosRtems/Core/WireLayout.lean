import RosRtems.Core.Alignment
import Mathlib.Data.Vector.Basic
import Mathlib.Data.List.Forall2

/-!
# Layouts of a wire format

A format says what stands on the wire from any offset on: symbols, and gaps in which
anything may stand.  A writer and a reader that both keep to the same layout understand
each other, whatever else their states are.  The rules below build the layout of a program
from the layouts of its calls.
-/

namespace RosRtems.WireLayout

open RosRtems.Alignment

variable {σ α β : Type}

/-! ## Layouts -/

/-- From each offset on, the slots that follow; what stands in an open one is not said. -/
def Layout (σ : Type) := ℕ → List (Option σ)

namespace Layout

def nothing : Layout σ := fun _ => []

def symbols (sent : List σ) : Layout σ := fun _ => sent.map some

/-- The way to the next multiple of `size`. -/
def gap (size : ℕ) : Layout σ := fun offset => List.replicate (padding size offset) none

instance : Append (Layout σ) :=
  ⟨fun first second offset => first offset ++ second (offset + (first offset).length)⟩

def each (item : α → Layout σ) : List α → Layout σ
  | [] => nothing
  | a :: rest => item a ++ each item rest

/-- The offset behind what stands from an offset on. -/
def stop (layout : Layout σ) (offset : ℕ) : ℕ := offset + (layout offset).length

variable {first second third layout : Layout σ} {item : α → Layout σ} {offset : ℕ}

theorem append_apply :
    (first ++ second) offset = first offset ++ second (first.stop offset) := rfl

theorem append_assoc : first ++ second ++ third = first ++ (second ++ third) := by
  funext offset
  simp only [append_apply, stop, List.length_append, List.append_assoc, Nat.add_assoc]

@[simp]
theorem nothing_append : nothing ++ layout = layout := by
  funext offset
  rfl

@[simp]
theorem append_nothing (layout : Layout σ) : layout ++ nothing = layout := by
  funext offset
  exact List.append_nil _

@[simp]
theorem stop_nothing : stop (nothing : Layout σ) offset = offset := rfl

@[simp]
theorem stop_symbols (sent : List σ) : stop (symbols sent) offset = offset + sent.length := by
  rw [stop, symbols, List.length_map]

@[simp]
theorem stop_gap (size : ℕ) :
    stop (gap size : Layout σ) offset = offset + padding size offset := by
  rw [stop, gap, List.length_replicate]

@[simp]
theorem stop_append : (first ++ second).stop offset = second.stop (first.stop offset) := by
  simp only [stop, append_apply, List.length_append, Nat.add_assoc]

@[simp]
theorem each_nil : each item [] = nothing := rfl

@[simp]
theorem each_cons (a : α) (rest : List α) : each item (a :: rest) = item a ++ each item rest := rfl

theorem each_map (item : α → Layout σ) {f : β → α} (bs : List β) :
    each item (bs.map f) = each (fun b => item (f b)) bs := by
  induction bs with
  | nil => rfl
  | cons b bs ih => rw [List.map_cons, each_cons, each_cons, ih]

theorem mul_le_length_each {size : ℕ} (hitem : ∀ a offset, size ≤ (item a offset).length)
    (as : List α) (offset : ℕ) : as.length * size ≤ (each item as offset).length := by
  induction as generalizing offset with
  | nil => exact Nat.zero_mul size ▸ Nat.zero_le _
  | cons a as ih =>
      have hfirst := hitem a offset
      have hrest := ih ((item a).stop offset)
      rw [each_cons, append_apply, List.length_append, List.length_cons, Nat.succ_mul]
      omega

/-- What holds of where each item stops holds of where all of them stop. -/
theorem stop_each_le {step : ℕ → α → ℕ} {as : List α}
    (hitem : ∀ a ∈ as, ∀ {offset current : ℕ}, offset ≤ current →
      (item a).stop offset ≤ step current a) :
    ∀ {offset current : ℕ}, offset ≤ current →
      (each item as).stop offset ≤ as.foldl step current := by
  induction as with
  | nil => exact fun hle => hle
  | cons a as ih =>
      intro offset current hle
      rw [each_cons, stop_append, List.foldl_cons]
      apply ih fun b hb => hitem b (List.mem_cons_of_mem _ hb)
      exact hitem a (List.mem_cons_self ..) hle

/-- Symbols one by one. -/
theorem each_symbols (symbol : α → σ) (as : List α) :
    each (fun a => symbols [symbol a]) as = symbols (as.map symbol) := by
  induction as with
  | nil => rfl
  | cons a as ih =>
      rw [each_cons, ih]
      rfl

end Layout

/-- The symbols that stand in the slots. -/
def Carries (slots : List (Option σ)) (sent : List σ) : Prop :=
  List.Forall₂ (fun slot symbol => ∀ s ∈ slot, symbol = s) slots sent

theorem Carries.length_eq {slots : List (Option σ)} {sent : List σ} (h : Carries slots sent) :
    slots.length = sent.length := List.Forall₂.length_eq h

theorem Carries.append {slots more : List (Option σ)} {sent rest : List σ}
    (hslots : Carries slots sent) (hmore : Carries more rest) :
    Carries (slots ++ more) (sent ++ rest) := List.rel_append hslots hmore

theorem Carries.of_append {slots more : List (Option σ)} {all : List σ}
    (h : Carries (slots ++ more) all) :
    ∃ sent rest, all = sent ++ rest ∧ Carries slots sent ∧ Carries more rest := by
  have htake := List.forall₂_take slots.length h
  have hdrop := List.forall₂_drop slots.length h
  rw [List.take_left] at htake
  rw [List.drop_left] at hdrop
  exact ⟨_, _, (List.take_append_drop slots.length all).symm, htake, hdrop⟩

theorem carries_symbols (sent : List σ) : Carries (sent.map some) sent := by
  induction sent with
  | nil => exact .nil
  | cons symbol sent ih => exact .cons (fun _ hs => Option.some.inj hs) ih

theorem Carries.eq_of_symbols {symbols sent : List σ} (h : Carries (symbols.map some) sent) :
    sent = symbols := by
  induction symbols generalizing sent with
  | nil =>
      cases h
      rfl
  | cons symbol symbols ih =>
      cases h with
      | cons hsymbol hrest => rw [hsymbol symbol rfl, ih hrest]

theorem carries_open (sent : List σ) : Carries (List.replicate sent.length none) sent := by
  induction sent with
  | nil => exact .nil
  | cons symbol sent ih => exact .cons (fun _ hs => nomatch hs) ih

theorem carries_gap {size offset : ℕ} {sent : List σ} (hsent : sent.length = padding size offset) :
    Carries (Layout.gap size offset) sent := by
  rw [Layout.gap, ← hsent]
  exact carries_open sent

/-! ## Programs that write -/

/-- What the rules look at in the state of a writer. -/
structure Sink (W σ : Type) where
  sound : W → Prop
  offset : W → ℕ
  room : W → ℕ
  written : W → List σ

variable {W R ε : Type}

/-- The writer has filled the slots. -/
structure Sink.Sent (V : Sink W σ) (w : W) (slots : List (Option σ)) (w' : W) : Prop where
  sound : V.sound w'
  offset : V.offset w' = V.offset w + slots.length
  room : V.room w = V.room w' + slots.length
  written : ∃ sent, Carries slots sent ∧ V.written w' = V.written w ++ sent

theorem Sink.Sent.append {V : Sink W σ} {w w' w'' : W} {slots more : List (Option σ)}
    (hfirst : V.Sent w slots w') (hsecond : V.Sent w' more w'') : V.Sent w (slots ++ more) w'' where
  sound := hsecond.sound
  offset := by rw [hsecond.offset, hfirst.offset, List.length_append, Nat.add_assoc]
  room := by
    rw [hfirst.room, hsecond.room, List.length_append]
    omega
  written := by
    obtain ⟨sent, hsent, hwritten⟩ := hfirst.written
    obtain ⟨rest, hrest, hboth⟩ := hsecond.written
    exact ⟨sent ++ rest, hsent.append hrest, by rw [hboth, hwritten, List.append_assoc]⟩

/-- The program writes what the layout says if there is room for it, and fails if not. -/
structure Writes (V : Sink W σ) (write : StateT W (Except ε) Unit) (layout : Layout σ) :
    Prop where
  fits : ∀ w, V.sound w → (layout (V.offset w)).length ≤ V.room w →
    ∃ w', write w = .ok ((), w') ∧ V.Sent w (layout (V.offset w)) w'
  overflows : ∀ w, V.sound w → V.room w < (layout (V.offset w)).length →
    ∃ fault, write w = .error fault

section WriterRules

variable {V : Sink W σ} {layout : Layout σ}

theorem bind_of_ok {read : StateT R (Except ε) α} {next : α → StateT R (Except ε) β} {r r' : R}
    {a : α} (hread : read r = .ok (a, r')) : (read >>= next) r = next a r' := by
  change (read r >>= fun result => next result.1 result.2) = _
  rw [hread]
  rfl

theorem bind_of_error {read : StateT R (Except ε) α} {next : α → StateT R (Except ε) β} {r : R}
    {fault : ε} (hread : read r = .error fault) : (read >>= next) r = .error fault := by
  change (read r >>= fun result => next result.1 result.2) = _
  rw [hread]
  rfl

theorem writes_pure : Writes (ε := ε) V (pure ()) Layout.nothing where
  fits w hsound _ := ⟨w, rfl, hsound, rfl, rfl, [], .nil, (List.append_nil _).symm⟩
  overflows _ _ hroom := absurd hroom (Nat.not_lt_zero _)

theorem Writes.bind {write : StateT W (Except ε) Unit} {next : Unit → StateT W (Except ε) Unit}
    {more : Layout σ} (hwrite : Writes V write layout) (hnext : Writes V (next ()) more) :
    Writes V (write >>= next) (layout ++ more) where
  fits w hsound hroom := by
    rw [Layout.append_apply, List.length_append] at hroom
    obtain ⟨w', hfirst, hsent⟩ := hwrite.fits w hsound (by omega)
    have hoffset : V.offset w' = layout.stop (V.offset w) := hsent.offset
    have hleft := hsent.room
    obtain ⟨w'', hsecond, hrest⟩ := hnext.fits w' hsent.sound (by rw [hoffset]; omega)
    refine ⟨w'', by rw [bind_of_ok hfirst, hsecond], ?_⟩
    rw [Layout.append_apply, ← hoffset]
    exact hsent.append hrest
  overflows w hsound hroom := by
    rw [Layout.append_apply, List.length_append] at hroom
    by_cases hfirst : (layout (V.offset w)).length ≤ V.room w
    · obtain ⟨w', hok, hsent⟩ := hwrite.fits w hsound hfirst
      have hoffset : V.offset w' = layout.stop (V.offset w) := hsent.offset
      have hleft := hsent.room
      obtain ⟨fault, hfault⟩ := hnext.overflows w' hsent.sound (by rw [hoffset]; omega)
      exact ⟨fault, by rw [bind_of_ok hok, hfault]⟩
    · obtain ⟨fault, hfault⟩ := hwrite.overflows w hsound (by omega)
      exact ⟨fault, bind_of_error hfault⟩

theorem Writes.forM {write : α → StateT W (Except ε) Unit} {item : α → Layout σ} :
    ∀ {as : List α}, (∀ a ∈ as, Writes V (write a) (item a)) →
      Writes V (as.forM write) (.each item as)
  | [], _ => writes_pure
  | _ :: _, hitem =>
      (hitem _ (List.mem_cons_self ..)).bind
        (Writes.forM fun b hb => hitem b (List.mem_cons_of_mem _ hb))

end WriterRules

/-! ## Programs that read -/

/-- What the rules look at in the state of a reader. -/
structure Source (R σ : Type) where
  sound : R → Prop
  offset : R → ℕ
  remaining : R → List σ

/-- The program gets the value from whatever the layout carries, and from nothing else. -/
def Reads (V : Source R σ) (read : StateT R (Except ε) α) (layout : Layout σ) (a : α) : Prop :=
  ∀ r sent rest, V.sound r → Carries (layout (V.offset r)) sent → V.remaining r = sent ++ rest →
    ∃ r', read r = .ok (a, r') ∧ V.sound r' ∧ V.offset r' = V.offset r + sent.length ∧
      V.remaining r' = rest

/-- Runs the program `n` times. -/
def times (read : StateT R (Except ε) α) : (n : ℕ) → StateT R (Except ε) (List.Vector α n)
  | 0 => pure .nil
  | n + 1 => do
      let a ← read
      let rest ← times read n
      pure (a ::ᵥ rest)

def ofList (as : List α) : List.Vector α as.length := ⟨as, rfl⟩

@[simp]
theorem toList_ofList (as : List α) : (ofList as).toList = as := rfl

section ReaderRules

variable {V : Source R σ} {layout : Layout σ}

theorem reads_pure (a : α) : Reads (ε := ε) V (pure a) Layout.nothing a := by
  intro r sent rest hsound hsent hremaining
  cases hsent
  exact ⟨r, rfl, hsound, rfl, hremaining⟩

theorem Reads.bind {read : StateT R (Except ε) α} {next : α → StateT R (Except ε) β}
    {more : Layout σ} {a : α} {b : β} (hread : Reads V read layout a)
    (hnext : Reads V (next a) more b) : Reads V (read >>= next) (layout ++ more) b := by
  intro r sent rest hsound hsent hremaining
  rw [Layout.append_apply] at hsent
  obtain ⟨front, back, rfl, hfront, hback⟩ := hsent.of_append
  rw [List.append_assoc] at hremaining
  obtain ⟨r', hok, hsound', hoffset', hremaining'⟩ := hread r front _ hsound hfront hremaining
  have hstop : layout.stop (V.offset r) = V.offset r' := by
    rw [hoffset', Layout.stop, hfront.length_eq]
  rw [hstop] at hback
  obtain ⟨r'', hok', hsound'', hoffset'', hremaining''⟩ :=
    hnext r' back rest hsound' hback hremaining'
  refine ⟨r'', by rw [bind_of_ok hok, hok'], hsound'', ?_, hremaining''⟩
  rw [hoffset'', hoffset', List.length_append, Nat.add_assoc]

theorem Reads.map {read : StateT R (Except ε) α} {f : α → β} {a : α}
    (hread : Reads V read layout a) :
    Reads V (read >>= fun a => pure (f a)) layout (f a) := by
  rw [← Layout.append_nothing layout]
  exact hread.bind (reads_pure (f a))

theorem Reads.times {read : StateT R (Except ε) β} {item : α → Layout σ} {got : α → β} :
    ∀ {n : ℕ} (as : List.Vector α n), (∀ a ∈ as.toList, Reads V read (item a) (got a)) →
      Reads V (WireLayout.times read n) (.each item as.toList) (as.map got)
  | 0, as, _ => by
      obtain rfl : as = .nil := List.Vector.eq_nil as
      exact reads_pure _
  | n + 1, as, hitem => by
      obtain ⟨a, rest, rfl⟩ := as.exists_eq_cons
      rw [List.Vector.toList_cons] at hitem ⊢
      rw [List.Vector.map_cons, Layout.each_cons]
      apply (hitem a (List.mem_cons_self ..)).bind
      exact (Reads.times rest fun b hb => hitem b (List.mem_cons_of_mem _ hb)).map

/-- A test that there are symbols enough for what follows. -/
theorem Reads.after_test {test : StateT R (Except ε) Unit} {next : Unit → StateT R (Except ε) α}
    {a : α} (enough : ℕ) (htest : ∀ r, enough ≤ (V.remaining r).length → test r = .ok ((), r))
    (hlayout : ∀ offset, enough ≤ (layout offset).length) (hnext : Reads V (next ()) layout a) :
    Reads V (test >>= next) layout a := by
  intro r sent rest hsound hsent hremaining
  have henough : enough ≤ (V.remaining r).length := by
    have hslots := hlayout (V.offset r)
    rw [hsent.length_eq] at hslots
    rw [hremaining, List.length_append]
    omega
  rw [bind_of_ok (htest r henough)]
  exact hnext r sent rest hsound hsent hremaining

end ReaderRules

/-! ## What comes after -/

/-- The program keeps what it reads from, and gets the same if more symbols come after. -/
structure Steady (whole : R → List σ) (extend : R → R) (read : StateT R (Except ε) α) : Prop where
  keeps : ∀ r a r', read r = .ok (a, r') → whole r' = whole r
  goesOn : ∀ r a r', read r = .ok (a, r') → read (extend r) = .ok (a, extend r')

section SteadyRules

variable {whole : R → List σ} {extend : R → R}

theorem steady_pure (a : α) : Steady (ε := ε) whole extend (pure a) where
  keeps r b r' hread := by
    cases hread
    rfl
  goesOn r b r' hread := by
    cases hread
    rfl

theorem steady_throw (fault : ε) : Steady whole extend (throw fault : StateT R (Except ε) α) where
  keeps _ _ _ hread := nomatch hread
  goesOn _ _ _ hread := nomatch hread

theorem Steady.bind {read : StateT R (Except ε) α} {next : α → StateT R (Except ε) β}
    (hread : Steady whole extend read) (hnext : ∀ a, Steady whole extend (next a)) :
    Steady whole extend (read >>= next) where
  keeps r b r'' hboth := by
    cases hfirst : read r with
    | error fault =>
        rw [bind_of_error hfirst] at hboth
        cases hboth
    | ok result =>
        rw [bind_of_ok hfirst] at hboth
        rw [(hnext _).keeps _ _ _ hboth, hread.keeps _ _ _ hfirst]
  goesOn r b r'' hboth := by
    cases hfirst : read r with
    | error fault =>
        rw [bind_of_error hfirst] at hboth
        cases hboth
    | ok result =>
        rw [bind_of_ok hfirst] at hboth
        rw [bind_of_ok (hread.goesOn _ _ _ hfirst)]
        exact (hnext _).goesOn _ _ _ hboth

theorem Steady.ite {condition : Prop} [Decidable condition] {read other : StateT R (Except ε) α}
    (hread : Steady whole extend read) (hother : Steady whole extend other) :
    Steady whole extend (if condition then read else other) := by
  split
  · exact hread
  · exact hother

theorem Steady.times {read : StateT R (Except ε) α} (hread : Steady whole extend read) :
    ∀ n, Steady whole extend (WireLayout.times read n)
  | 0 => steady_pure _
  | n + 1 => hread.bind fun _ => (Steady.times hread n).bind fun _ => steady_pure _

end SteadyRules

end RosRtems.WireLayout
