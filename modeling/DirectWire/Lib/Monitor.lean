import DirectWire.Lib.Run

/-!
# Waiting loops

Threads that share data under a mutex, with one condition variable and one atomic flag that says
that they should stop. A consumer takes the mutex and waits when no check lets it return. Whoever
sets the flag does not take the mutex: it stores the flag and then notifies. `Design` is what
differs from one such program to the next.
-/

namespace DirectWire.Lib

open Function

inductive Check where
  | data
  | flag
deriving DecidableEq, Repr

/-- The data, what consumers take and producers put, and how. -/
structure Design (σ α β : Type) where
  checks : List Check
  /-- What there is to take, and the data afterwards. -/
  take : σ → Option α × σ
  put : σ → β → σ
  /-- Whether a producer notifies all consumers, before it releases the mutex.
  Otherwise it notifies one, afterwards. -/
  notifiesAll : Bool

/-- A round of checks makes the data smaller if it takes something, and never larger. -/
structure Design.Drains {σ α β : Type} (D : Design σ α β) (size : σ → Nat) : Prop where
  takes : ∀ d x d', D.take d = (some x, d') → size d' < size d
  leaves : ∀ d d', D.take d = (none, d') → size d' ≤ size d

inductive Place where
  /-- At work on what it has taken, or not yet begun. -/
  | outside
  /-- It holds the mutex and has these checks to make. -/
  | looking (rest : List Check)
  | waiting
  | woken
  | stopped
deriving DecidableEq, Repr

def Place.passed : Place → Bool
  | looking rest => .flag ∉ rest
  | _ => false

/-- The steps a consumer has before it until it is outside again, at most. -/
def Place.weight {σ α β : Type} (D : Design σ α β) : Place → Nat
  | outside | woken => D.checks.length + 2
  | looking rest => rest.length + 1
  | waiting | stopped => 0

/-- `n` consumers. -/
structure Monitor (σ : Type) (n : Nat) where
  data : σ
  flag : Bool
  holder : Option (Fin n)
  place : Fin n → Place
  /-- Producers that have released the mutex and not yet notified. -/
  owed : Nat
  /-- Shutdowns that have stored the flag and not yet notified. -/
  closing : Nat
  closed : Nat

inductive MonitorEvent (n : Nat) (β : Type) where
  | enter (i : Fin n)
  | look (i : Fin n)
  | wait (i : Fin n)
  | reenter (i : Fin n)
  | put (x : β)
  /-- `notify_one`, with the consumer it reaches. -/
  | notifyOne (i : Option (Fin n))
  | store
  | notifyAll

def MonitorEvent.ofConsumer {n : Nat} {β : Type} : MonitorEvent n β → Bool
  | enter _ | look _ | wait _ | reenter _ => true
  | put _ | notifyOne _ | store | notifyAll => false

namespace Monitor

variable {σ α β : Type} {n : Nat}

def new (data : σ) : Monitor σ n := ⟨data, false, none, fun _ => .outside, 0, 0, 0⟩

def wakeAll (s : Monitor σ n) : Monitor σ n :=
  { s with place := fun i => if s.place i = .waiting then .woken else s.place i }

def hold (s : Monitor σ n) (i : Fin n) (rest : List Check) : Monitor σ n :=
  { s with holder := some i, place := update s.place i (.looking rest) }

def leave (s : Monitor σ n) (i : Fin n) (p : Place) : Monitor σ n :=
  { s with holder := none, place := update s.place i p }

def step (D : Design σ α β) (s : Monitor σ n) : MonitorEvent n β → Option (Monitor σ n)
  | .enter i =>
    if s.holder = none ∧ s.place i = .outside then some (s.hold i D.checks) else none
  | .look i =>
    match s.place i with
    | .looking (.data :: rest) =>
      match D.take s.data with
      | (some _, data) => some { s.leave i .outside with data }
      | (none, data) => some { s.hold i rest with data }
    | .looking (.flag :: rest) =>
      if s.flag then some (s.leave i .stopped) else some (s.hold i rest)
    | _ => none
  | .wait i => if s.place i = .looking [] then some (s.leave i .waiting) else none
  | .reenter i =>
    if s.holder = none ∧ s.place i = .woken then some (s.hold i D.checks) else none
  | .put x =>
    if s.holder = none then
      if D.notifiesAll then some { s.wakeAll with data := D.put s.data x }
      else some { s with data := D.put s.data x, owed := s.owed + 1 }
    else none
  | .notifyOne none =>
    -- a notification is lost only when nobody waits
    if 0 < s.owed ∧ ∀ i, s.place i ≠ .waiting then some { s with owed := s.owed - 1 } else none
  | .notifyOne (some i) =>
    if 0 < s.owed ∧ s.place i = .waiting then
      some { s with owed := s.owed - 1, place := update s.place i .woken }
    else none
  -- no mutex is taken for these two
  | .store => some { s with flag := true, closing := s.closing + 1 }
  | .notifyAll =>
    if 0 < s.closing then
      some { s.wakeAll with closing := s.closing - 1, closed := s.closed + 1 }
    else none

/-- When the notification of a shutdown is given, no consumer is between its
check of the flag and its wait. -/
def Quiet (s : Monitor σ n) : MonitorEvent n β → Prop
  | .notifyAll => ∀ i, (s.place i).passed = false
  | _ => True

instance decidableQuiet (s : Monitor σ n) (e : MonitorEvent n β) : Decidable (s.Quiet e) :=
  match e with
  | .notifyAll => inferInstanceAs (Decidable (∀ i, (s.place i).passed = false))
  | .enter _ | .look _ | .wait _ | .reenter _ | .put _ | .notifyOne _ | .store => .isTrue trivial

/-- Who looks has the mutex; a shutdown has stored the flag; and after a
shutdown everyone who looks has yet to check the flag, and nobody waits. -/
structure Inv (s : Monitor σ n) : Prop where
  holds : ∀ i rest, s.place i = .looking rest → s.holder = some i
  holder : ∀ i, s.holder = some i → ∃ rest, s.place i = .looking rest
  stored : 0 < s.closing ∨ 0 < s.closed → s.flag = true
  checks : 0 < s.closed → ∀ i rest, s.place i = .looking rest → .flag ∈ rest
  awake : 0 < s.closed → ∀ i, s.place i ≠ .waiting

variable {D : Design σ α β} {s s' : Monitor σ n} {e : MonitorEvent n β}

variable {i : Fin n} {rest : List Check}

theorem place_update {j : Fin n} {p : Place} {q : Place} (h : update s.place i p j = q) :
    j = i ∧ p = q ∨ j ≠ i ∧ s.place j = q := by
  by_cases hj : j = i
  · subst hj
    rw [update_self] at h
    exact .inl ⟨rfl, h⟩
  · rw [update_of_ne hj] at h
    exact .inr ⟨hj, h⟩

theorem Inv.new (data : σ) : (Monitor.new data : Monitor σ n).Inv := by
  refine ⟨fun i rest h => ?_, fun i h => ?_, fun h => ?_, fun h => ?_, fun h => ?_⟩
  · cases h
  · cases h
  · rcases h with h | h <;> cases h
  · cases h
  · cases h

theorem Inv.withData (h : s.Inv) (data : σ) : ({ s with data } : Monitor σ n).Inv :=
  ⟨h.holds, h.holder, h.stored, h.checks, h.awake⟩

theorem Inv.hold (h : s.Inv) (hFree : s.holder = none ∨ s.holder = some i)
    (hFlag : 0 < s.closed → .flag ∈ rest) : (s.hold i rest).Inv := by
  -- nobody else can be looking
  have hOthers : ∀ j rest', j ≠ i → s.place j ≠ .looking rest' := by
    intro j rest' hj hPlace
    have hHolder := h.holds j rest' hPlace
    rcases hFree with hFree | hFree
    · rw [hFree] at hHolder
      cases hHolder
    · rw [hFree] at hHolder
      cases hHolder
      exact hj rfl
  refine ⟨fun j rest' hPlace => ?_, fun j hHolder => ?_, h.stored, fun hClosed j rest' hPlace => ?_,
    fun hClosed j hWait => ?_⟩
  · rcases place_update hPlace with ⟨rfl, -⟩ | ⟨hj, hPlace⟩
    · rfl
    · exact absurd hPlace (hOthers j rest' hj)
  · cases hHolder
    exact ⟨rest, update_self _ _ _⟩
  · rcases place_update hPlace with ⟨rfl, hEq⟩ | ⟨hj, hPlace⟩
    · cases hEq
      exact hFlag hClosed
    · exact absurd hPlace (hOthers j rest' hj)
  · rcases place_update hWait with ⟨rfl, hEq⟩ | ⟨-, hPlace⟩
    · cases hEq
    · exact h.awake hClosed j hPlace

theorem Inv.leave (h : s.Inv) {p : Place} (hPlace : s.place i = .looking rest)
    (hOut : ∀ rest', p ≠ .looking rest') (hWait : 0 < s.closed → p ≠ .waiting) :
    (s.leave i p).Inv := by
  have hHolder := h.holds i rest hPlace
  have hNobody : ∀ j rest', update s.place i p j ≠ .looking rest' := by
    intro j rest' hj
    rcases place_update hj with ⟨-, hEq⟩ | ⟨hNe, hj⟩
    · exact hOut rest' hEq
    · have hOther := h.holds j rest' hj
      rw [hHolder] at hOther
      cases hOther
      exact hNe rfl
  refine ⟨fun j rest' hj => absurd hj (hNobody j rest'), fun j hj => (by cases hj), h.stored,
    fun _ j rest' hj => absurd hj (hNobody j rest'), fun hClosed j hj => ?_⟩
  rcases place_update hj with ⟨-, hEq⟩ | ⟨-, hj⟩
  · exact hWait hClosed hEq
  · exact h.awake hClosed j hj

theorem wakeAll_looking : s.wakeAll.place i = .looking rest ↔ s.place i = .looking rest := by
  show (if s.place i = .waiting then Place.woken else s.place i) = _ ↔ _
  split
  · rename_i hWait
    rw [hWait]
    constructor <;> intro h <;> cases h
  · exact Iff.rfl

theorem wakeAll_not_waiting (i : Fin n) : s.wakeAll.place i ≠ .waiting := by
  show (if s.place i = .waiting then Place.woken else s.place i) ≠ _
  split
  · intro h
    cases h
  · assumption

theorem Inv.wakeAll (h : s.Inv) : s.wakeAll.Inv := by
  refine ⟨fun i rest hPlace => h.holds i rest (wakeAll_looking.mp hPlace), fun i hHolder => ?_,
    h.stored, fun hClosed i rest hPlace => ?_, fun _ i => wakeAll_not_waiting i⟩
  · obtain ⟨rest, hPlace⟩ := h.holder i hHolder
    exact ⟨rest, wakeAll_looking.mpr hPlace⟩
  · exact h.checks hClosed i rest (wakeAll_looking.mp hPlace)

theorem Inv.wakeOne (h : s.Inv) (hWait : s.place i = .waiting) (owed : Nat) :
    ({ s with owed, place := update s.place i .woken } : Monitor σ n).Inv := by
  have hLooking : ∀ j rest, update s.place i .woken j = .looking rest →
      s.place j = .looking rest := by
    intro j rest hj
    rcases place_update hj with ⟨-, hEq⟩ | ⟨-, hj⟩
    · cases hEq
    · exact hj
  refine ⟨fun j rest hj => h.holds j rest (hLooking j rest hj), fun j hHolder => ?_, h.stored,
    fun hClosed j rest hj => h.checks hClosed j rest (hLooking j rest hj),
    fun hClosed => absurd hWait (h.awake hClosed i)⟩
  obtain ⟨rest, hj⟩ := h.holder j hHolder
  refine ⟨rest, ?_⟩
  show update s.place i .woken j = _
  rw [update_of_ne, hj]
  rintro rfl
  rw [hWait] at hj
  cases hj

theorem Inv.look (h : s.Inv) {c : Check} (hPlace : s.place i = .looking (c :: rest))
    (hKeep : 0 < s.closed → c ≠ .flag) : (s.hold i rest).Inv := by
  refine h.hold (.inr (h.holds i _ hPlace)) fun hClosed => ?_
  -- after a shutdown the check of the flag was still to be made
  have hFlag := h.checks hClosed i _ hPlace
  rcases List.mem_cons.mp hFlag with hEq | hRest
  · exact absurd hEq.symm (hKeep hClosed)
  · exact hRest

theorem Inv.step (hFlag : .flag ∈ D.checks) (h : s.Inv) (hQuiet : s.Quiet e)
    (hStep : s.step D e = some s') : s'.Inv := by
  cases e with
  | enter i | reenter i =>
    simp only [Monitor.step] at hStep
    split at hStep
    · rename_i hFree
      cases hStep
      exact h.hold (.inl hFree.1) fun _ => hFlag
    · cases hStep
  | look i =>
    simp only [Monitor.step] at hStep
    split at hStep
    · rename_i rest hPlace
      split at hStep
      · cases hStep
        exact (h.leave (p := .outside) hPlace nofun nofun).withData _
      · cases hStep
        exact (h.look hPlace nofun).withData _
    · rename_i rest hPlace
      split at hStep
      · cases hStep
        exact h.leave hPlace nofun nofun
      · rename_i hUnset
        cases hStep
        refine h.look hPlace fun hClosed => ?_
        exact absurd (h.stored (.inr hClosed)) hUnset
    · cases hStep
  | wait i =>
    simp only [Monitor.step] at hStep
    split at hStep
    · rename_i hPlace
      cases hStep
      refine h.leave hPlace nofun fun hClosed => ?_
      -- after a shutdown no consumer gets here
      have hNone := h.checks hClosed i [] hPlace
      cases hNone
    · cases hStep
  | put x =>
    simp only [Monitor.step] at hStep
    split at hStep
    · split at hStep
      · cases hStep
        exact h.wakeAll.withData _
      · cases hStep
        exact ⟨h.holds, h.holder, h.stored, h.checks, h.awake⟩
    · cases hStep
  | notifyOne i =>
    cases i with
    | none =>
      simp only [Monitor.step] at hStep
      split at hStep
      · cases hStep
        exact ⟨h.holds, h.holder, h.stored, h.checks, h.awake⟩
      · cases hStep
    | some i =>
      simp only [Monitor.step] at hStep
      split at hStep
      · rename_i hOwed
        cases hStep
        exact h.wakeOne hOwed.2 _
      · cases hStep
  | store =>
    cases hStep
    exact ⟨h.holds, h.holder, fun _ => rfl, h.checks, h.awake⟩
  | notifyAll =>
    simp only [Monitor.step] at hStep
    split at hStep
    · rename_i hClosing
      cases hStep
      have hWoken := h.wakeAll
      refine ⟨hWoken.holds, hWoken.holder, fun _ => h.stored (.inl hClosing),
        fun _ i rest hPlace => ?_, fun _ i => wakeAll_not_waiting i⟩
      -- the condition of the run, for a consumer that is looking
      have hPassed := hQuiet i
      rw [wakeAll_looking.mp hPlace] at hPassed
      simpa [Place.passed] using hPassed
    · cases hStep

/-! ## The consumers stop -/

/-- Nobody waits, and the consumers on their own come to an end: none of their runs is longer than
the bound, and where none of them can go on all have stopped. -/
structure Joinable (D : Design σ α β) (s : Monitor σ n) : Prop where
  awake : ∀ i, s.place i ≠ .waiting
  stops : ∃ bound, ∀ es s', exec (step D) (fun _ e => e.ofConsumer = true) s es = some s' →
    es.length ≤ bound ∧
      ((∀ e, e.ofConsumer = true → s'.step D e = none) → ∀ i, s'.place i = .stopped)

theorem Inv.goes_on (h : s.Inv) (hClosed : 0 < s.closed) (hi : s.place i ≠ .stopped) :
    ∃ e : MonitorEvent n β, e.ofConsumer = true ∧ (s.step D e).isSome = true := by
  cases hHolder : s.holder with
  | some j =>
    obtain ⟨rest, hPlace⟩ := h.holder j hHolder
    refine ⟨.look j, rfl, ?_⟩
    cases rest with
    | nil =>
      have hNone := h.checks hClosed j [] hPlace
      cases hNone
    | cons c rest =>
      cases c with
      | data | flag =>
        simp only [Monitor.step, hPlace]
        split <;> rfl
  | none =>
    cases hPlace : s.place i with
    | outside => exact ⟨.enter i, rfl, by simp [Monitor.step, hHolder, hPlace]⟩
    | looking rest =>
      have hSome := h.holds i rest hPlace
      rw [hHolder] at hSome
      cases hSome
    | waiting => exact absurd hPlace (h.awake hClosed i)
    | woken => exact ⟨.reenter i, rfl, by simp [Monitor.step, hHolder, hPlace]⟩
    | stopped => exact absurd hPlace hi

/-- One more round for each thing to take. -/
def measure (D : Design σ α β) (size : σ → Nat) (s : Monitor σ n) : Nat :=
  size s.data * (D.checks.length + 2) + ∑ i, (s.place i).weight D

theorem sum_update (i : Fin n) (p : Place) : ∑ j, (update s.place i p j).weight D =
    ∑ j ∈ Finset.univ.erase i, (s.place j).weight D + p.weight D := by
  rw [← Finset.sum_erase_add _ _ (Finset.mem_univ i), update_self]
  refine congrArg (· + _) (Finset.sum_congr rfl fun j hj => ?_)
  rw [update_of_ne (Finset.ne_of_mem_erase hj)]

theorem measure_lt {size : σ → Nat} {data : σ} {holder : Option (Fin n)} {p : Place}
    (h : size data * (D.checks.length + 2) + p.weight D <
      size s.data * (D.checks.length + 2) + (s.place i).weight D) :
    measure D size { s with data, holder, place := update s.place i p } < measure D size s := by
  have hSum := Finset.sum_erase_add Finset.univ (fun j => (s.place j).weight D) (Finset.mem_univ i)
  simp only [measure, sum_update]
  omega

theorem Inv.step_consumer (h : s.Inv) (hClosed : 0 < s.closed) {size : σ → Nat}
    (hDrains : D.Drains size) (he : e.ofConsumer = true) (hStep : s.step D e = some s') :
    0 < s'.closed ∧ measure D size s' < measure D size s := by
  cases e with
  | enter i | reenter i =>
    simp only [Monitor.step] at hStep
    split at hStep
    · rename_i hFree
      cases hStep
      exact ⟨hClosed, measure_lt (by simp [hFree.2, Place.weight])⟩
    · cases hStep
  | look i =>
    simp only [Monitor.step] at hStep
    split at hStep
    · rename_i rest hPlace
      -- another round is paid for by what was taken
      have hRest : (Place.looking (.data :: rest)).weight D = rest.length + 2 := rfl
      split at hStep
      · rename_i x data hTake
        cases hStep
        have hLess := Nat.mul_le_mul_right (D.checks.length + 2)
          (Nat.succ_le_of_lt (hDrains.takes _ _ _ hTake))
        rw [Nat.succ_mul] at hLess
        refine ⟨hClosed, measure_lt ?_⟩
        rw [hPlace, hRest, Place.weight]
        omega
      · rename_i data hTake
        cases hStep
        have hLess := Nat.mul_le_mul_right (D.checks.length + 2) (hDrains.leaves _ _ hTake)
        refine ⟨hClosed, measure_lt ?_⟩
        rw [hPlace, hRest, Place.weight]
        omega
    · rename_i rest hPlace
      rw [if_pos (h.stored (.inr hClosed))] at hStep
      cases hStep
      exact ⟨hClosed, measure_lt (by simp [hPlace, Place.weight])⟩
    · cases hStep
  | wait i =>
    simp only [Monitor.step] at hStep
    split at hStep
    · rename_i hPlace
      cases h.checks hClosed i [] hPlace
    · cases hStep
  | put | notifyOne | store | notifyAll => cases he

theorem Inv.exec_consumers (hFlag : .flag ∈ D.checks) {size : σ → Nat} (hDrains : D.Drains size)
    {es : List (MonitorEvent n β)} (h : s.Inv) (hClosed : 0 < s.closed)
    (hExec : exec (Monitor.step D) (fun _ e => e.ofConsumer = true) s es = some s') :
    s'.Inv ∧ 0 < s'.closed ∧ es.length + measure D size s' ≤ measure D size s := by
  induction es generalizing s with
  | nil =>
    cases hExec
    exact ⟨h, hClosed, by simp⟩
  | cons e es ih =>
    rw [exec] at hExec
    split at hExec
    · rename_i he
      obtain ⟨t, hStep, hRest⟩ := Option.bind_eq_some_iff.mp hExec
      have hQuiet : s.Quiet e := by
        cases e with
        | enter | look | wait | reenter => trivial
        | put | notifyOne | store | notifyAll => cases he
      obtain ⟨hClosed', hLess⟩ := h.step_consumer hClosed hDrains he hStep
      obtain ⟨hInv, hStill, hLen⟩ := ih (h.step hFlag hQuiet hStep) hClosed' hRest
      refine ⟨hInv, hStill, ?_⟩
      rw [List.length_cons]
      omega
    · cases hExec

/-- **No lost wake-up.** In a run from the start in which every notification of a shutdown meets
`Quiet`, the consumers can be joined once a shutdown is through: `hFlag`, each round of checks has
one of the flag, and `hDrains`, the data is used up by taking from it. -/
theorem joinable_of_quiet (hFlag : .flag ∈ D.checks) {size : σ → Nat} (hDrains : D.Drains size)
    {data : σ} (hRun : Run (Monitor.step D) Quiet (Monitor.new data) s) (hClosed : 0 < s.closed) :
    s.Joinable D := by
  have hInv : s.Inv := hRun.invariant (I := Inv) (.new data)
    fun _ _ _ hI hQuiet hStep => hI.step hFlag hQuiet hStep
  refine ⟨hInv.awake hClosed, measure D size s, fun es s' hExec => ?_⟩
  obtain ⟨hInv', hClosed', hLen⟩ := hInv.exec_consumers hFlag hDrains hClosed hExec
  refine ⟨by omega, fun hStuck i => ?_⟩
  by_contra hi
  obtain ⟨e, he, hSome⟩ := hInv'.goes_on hClosed' hi
  rw [hStuck e he] at hSome
  cases hSome

theorem stuck_of_waiting (h : ∀ i, s.place i = .waiting) (he : e.ofConsumer = true) :
    s.step D e = none := by
  cases e with
  | enter i | look i | wait i | reenter i => simp [Monitor.step, h i]
  | put x | notifyOne i | store | notifyAll => cases he

end Monitor

end DirectWire.Lib
