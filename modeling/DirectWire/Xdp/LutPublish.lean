import DirectWire.Lib.Run
import DirectWire.Xdp.Maglev

/-!
# XDP edge — publishing tables

`LutPublisher` has two buffers, each with the number of its readers, and an index that says which
of them is active. One writer fills the other buffer, when it has no readers, and then changes the
index. A reader adds itself to the active buffer's readers and looks at the index again.

* `LutSharing.Guarded` — nobody looks at the buffer that is written.
-/

namespace DirectWire.Xdp

open Lib Outcome List Function

structure Lut where
  backends : List UInt32
  table : List UInt32
deriving DecidableEq, Repr

/-- The buffers are numbered `false` and `true`. -/
structure LutPublisher where
  m : Nat
  backends : Bool → List UInt32
  tables : Bool → List UInt32
  readers : Bool → UInt64
  active : Bool
  version : UInt64

namespace LutPublisher

def buffer (p : LutPublisher) (i : Bool) : Lut := ⟨p.backends i, p.tables i⟩

def new (checks : Bool) (fuel m : Nat) (initial : List UInt32) :
    Option (Outcome Empty LutPublisher) :=
  (buildLut checks m initial fuel).map fun built => do
    let table ← built
    ok {
      m
      backends := fun i => if i then [] else initial
      tables := fun i => if i then replicate m u32Max else table
      readers := fun _ => 0
      active := false
      version := 1 }

def flipped (p : LutPublisher) (lut : Lut) : LutPublisher :=
  { p with
    tables := update p.tables (!p.active) lut.table
    backends := update p.backends (!p.active) lut.backends
    version := p.version + 1
    active := !p.active }

/-- `publish` without a reader in between. It does not return as long as the other buffer has
readers. -/
def publish (checks : Bool) (fuel : Nat) (p : LutPublisher) (backends : List UInt32) :
    Option (Outcome Empty (LutPublisher × UInt64)) :=
  if p.readers (!p.active) ≠ 0 then none
  else (buildLut checks p.m backends fuel).map fun built => do
    let table ← built
    let version ← addU64 checks p.version 1
    ok (p.flipped ⟨backends, table⟩, version)

variable {checks : Bool} {fuel m : Nat} {backends : List UInt32} {p q : LutPublisher}

theorem buffer_flipped (p : LutPublisher) (lut : Lut) :
    (p.flipped lut).buffer (p.flipped lut).active = lut := by
  simp [flipped, buffer]

theorem of_new (h : new checks fuel m backends = some (ok p)) :
    ∃ table, buildLut checks m backends fuel = some (ok table) ∧
      p.m = m ∧ p.buffer p.active = ⟨backends, table⟩ ∧ (∀ i, p.readers i = 0) ∧
      p.version = 1 := by
  obtain ⟨built, hBuild, hNew⟩ := Option.map_eq_some_iff.mp h
  obtain ⟨table, rfl, hSame⟩ := bind_eq_ok.mp hNew
  cases hSame
  exact ⟨table, hBuild, rfl, rfl, fun _ => rfl, rfl⟩

theorem of_publish {version} (h : p.publish checks fuel backends = some (ok (q, version))) :
    p.readers (!p.active) = 0 ∧ ∃ table, buildLut checks p.m backends fuel = some (ok table) ∧
      addU64 checks p.version 1 = (ok version : Outcome Empty _) ∧
      q = p.flipped ⟨backends, table⟩ := by
  unfold publish at h
  split at h
  · cases h
  rename_i hNone
  obtain ⟨built, hBuild, hPublish⟩ := Option.map_eq_some_iff.mp h
  obtain ⟨table, rfl, hVersion⟩ := bind_eq_ok.mp hPublish
  obtain ⟨version', hAdd, hSame⟩ := bind_eq_ok.mp hVersion
  cases hSame
  exact ⟨not_not.mp hNone, table, hBuild, hAdd, rfl⟩

end LutPublisher

/-! ## The writer and the readers -/

inductive Writer where
  | idle
  /-- It has loaded the index, and waits for the readers of the other buffer. -/
  | loaded (backends : List UInt32) (shadow : Bool)
  | free (backends : List UInt32) (shadow : Bool)
  | built (lut : Lut) (shadow : Bool)
  | tableWritten (lut : Lut) (shadow : Bool)
  | written (lut : Lut) (shadow : Bool)
  /-- The version is incremented, the index not yet stored. -/
  | versioned (lut : Lut) (shadow : Bool) (version : UInt64)
  | panicked (shadow : Bool)
deriving DecidableEq, Repr

def Writer.target : Writer → Option Bool
  | idle => none
  | loaded _ _ => none
  | free _ shadow => some shadow
  | built _ shadow => some shadow
  | tableWritten _ shadow => some shadow
  | written _ shadow => some shadow
  | versioned _ shadow _ => some shadow
  | panicked shadow => some shadow

def Writer.side : Writer → Option Bool
  | loaded _ shadow => some shadow
  | w => w.target

def Writer.ahead : Writer → Bool
  | versioned _ _ _ => true
  | _ => false

def Writer.lut : Writer → Option Lut
  | built lut _ => some lut
  | tableWritten lut _ => some lut
  | written lut _ => some lut
  | versioned lut _ _ => some lut
  | _ => none

def Writer.pending : Writer → Nat
  | built _ _ => 1
  | tableWritten _ _ => 1
  | written _ _ => 1
  | _ => 0

inductive Reader where
  | idle
  | loaded (i : Bool)
  | counted (i : Bool)
  /-- The index has changed: it takes itself off the count and begins again. -/
  | stale (i : Bool)
  | checked (i : Bool)
  | held (i : Bool) (version : UInt64)
deriving DecidableEq, Repr

def Reader.counts (i : Bool) : Reader → Bool
  | idle => false
  | loaded _ => false
  | counted j => j == i
  | stale j => j == i
  | checked j => j == i
  | held j _ => j == i

def Reader.sees (i : Bool) : Reader → Bool
  | checked j => j == i
  | held j _ => j == i
  | _ => false

def Reader.isChecked : Reader → Bool
  | checked _ => true
  | _ => false

theorem Writer.side_of_target {w : Writer} {i : Bool} (h : w.target = some i) :
    w.side = some i := by
  cases w <;> first | exact h | cases h

theorem Reader.counts_of_sees {x : Reader} {i : Bool} (h : x.sees i = true) :
    x.counts i = true := by
  cases x <;> first | exact h | cases h

structure LutSharing where
  lut : LutPublisher
  writer : Writer
  readers : List Reader
  /-- What the constructor and the calls of `publish` have built. -/
  calls : List Lut
  /-- What the calls of `publish` have returned, with their backends. -/
  returned : List (UInt64 × List UInt32)
  snapshots : List (UInt64 × Lut)

inductive LutEvent where
  | load (backends : List UInt32)
  | spin
  | build (fuel : Nat)
  | writeTable
  | writeBackends
  | bump
  | flip
  | spawn
  | readActive (r : Nat)
  | enter (r : Nat)
  | recheck (r : Nat)
  | leave (r : Nat)
  | readVersion (r : Nat)
  | release (r : Nat)
deriving DecidableEq, Repr

namespace LutSharing

def start (lut : LutPublisher) : LutSharing := ⟨lut, .idle, [], [lut.buffer lut.active], [], []⟩

def setReader (s : LutSharing) (r : Nat) (x : Reader) (counts : Bool → UInt64) : LutSharing :=
  { s with lut := { s.lut with readers := counts }, readers := s.readers.set r x }

/-- `fetch_add` and `fetch_sub` on the count of a buffer, which wrap. -/
def incremented (s : LutSharing) (i : Bool) : Bool → UInt64 :=
  update s.lut.readers i (s.lut.readers i + 1)

def decremented (s : LutSharing) (i : Bool) : Bool → UInt64 :=
  update s.lut.readers i (s.lut.readers i - 1)

def step (checks : Bool) (s : LutSharing) : LutEvent → Option LutSharing
  | .load backends =>
    match s.writer with
    | .idle => some { s with writer := .loaded backends !s.lut.active }
    | _ => none
  | .spin =>
    match s.writer with
    | .loaded backends shadow =>
      some { s with
        writer := if s.lut.readers shadow ≠ 0 then .loaded backends shadow
          else .free backends shadow }
    | _ => none
  | .build fuel =>
    match s.writer with
    | .free backends shadow =>
      match buildLut checks s.lut.m backends fuel with
      | none => none
      | some (.panic _) => some { s with writer := .panicked shadow }
      | some (.ok table) =>
        some { s with
          writer := .built ⟨backends, table⟩ shadow
          calls := s.calls ++ [⟨backends, table⟩] }
    | _ => none
  | .writeTable =>
    match s.writer with
    | .built lut shadow =>
      some { s with
        lut := { s.lut with tables := update s.lut.tables shadow lut.table }
        writer := .tableWritten lut shadow }
    | _ => none
  | .writeBackends =>
    match s.writer with
    | .tableWritten lut shadow =>
      some { s with
        lut := { s.lut with backends := update s.lut.backends shadow lut.backends }
        writer := .written lut shadow }
    | _ => none
  | .bump =>
    match s.writer with
    | .written lut shadow =>
      let s' := { s with lut := { s.lut with version := s.lut.version + 1 } }
      match (addU64 checks s.lut.version 1 : Outcome Empty UInt64) with
      | .ok version => some { s' with writer := .versioned lut shadow version }
      | .panic _ => some { s' with writer := .panicked shadow }
    | _ => none
  | .flip =>
    match s.writer with
    | .versioned lut shadow version =>
      some { s with
        lut := { s.lut with active := shadow }
        writer := .idle
        returned := s.returned ++ [(version, lut.backends)] }
    | _ => none
  | .spawn => some { s with readers := s.readers ++ [.idle] }
  | .readActive r =>
    match s.readers[r]? with
    | some .idle => some (s.setReader r (.loaded s.lut.active) s.lut.readers)
    | _ => none
  | .enter r =>
    match s.readers[r]? with
    | some (.loaded i) => some (s.setReader r (.counted i) (s.incremented i))
    | _ => none
  | .recheck r =>
    match s.readers[r]? with
    | some (.counted i) =>
      some (s.setReader r (if s.lut.active = i then .checked i else .stale i) s.lut.readers)
    | _ => none
  | .leave r =>
    match s.readers[r]? with
    | some (.stale i) => some (s.setReader r .idle (s.decremented i))
    | _ => none
  | .readVersion r =>
    match s.readers[r]? with
    | some (.checked i) =>
      some { s.setReader r (.held i s.lut.version) s.lut.readers with
        snapshots := s.snapshots ++ [(s.lut.version, s.lut.buffer i)] }
    | _ => none
  | .release r =>
    match s.readers[r]? with
    | some (.held i _) => some (s.setReader r .idle (s.decremented i))
    | _ => none

def writesTo (s : LutSharing) : LutEvent → Option Bool
  | .writeTable => s.writer.target
  | .writeBackends => s.writer.target
  | _ => none

def uncrowded (s : LutSharing) : LutEvent → Bool
  | .enter r =>
    match s.readers[r]? with
    | some (.loaded i) => (s.lut.readers i).toNat + 1 < 2 ^ 64
    | _ => true
  | _ => true

/-- The version changes neither between a reader's second look at the index and its look at
the version, nor just before that second look without the index; and it does not wrap. -/
def calm (s : LutSharing) : LutEvent → Bool
  | .bump => !s.readers.any Reader.isChecked && s.lut.version.toNat + 1 < 2 ^ 64
  | .recheck r =>
    match s.readers[r]? with
    | some (.counted i) => i ≠ s.lut.active || !s.writer.ahead
    | _ => true
  | _ => true

/-! ## What a step can be -/

inductive Act (checks : Bool) (s : LutSharing) : LutEvent → LutSharing → Prop where
  | load {backends} (hw : s.writer = .idle) :
      Act checks s (.load backends) { s with writer := .loaded backends !s.lut.active }
  | spin {backends shadow} (hw : s.writer = .loaded backends shadow) :
      Act checks s .spin { s with writer := .loaded backends shadow }
  | pass {backends shadow} (hw : s.writer = .loaded backends shadow)
      (hNone : s.lut.readers shadow = 0) :
      Act checks s .spin { s with writer := .free backends shadow }
  | build {fuel backends table shadow} (hw : s.writer = .free backends shadow)
      (hBuild : buildLut checks s.lut.m backends fuel = some (ok table)) :
      Act checks s (.build fuel) { s with
        writer := .built ⟨backends, table⟩ shadow
        calls := s.calls ++ [⟨backends, table⟩] }
  | crashBuild {fuel backends shadow} (hw : s.writer = .free backends shadow) :
      Act checks s (.build fuel) { s with writer := .panicked shadow }
  | writeTable {lut shadow} (hw : s.writer = .built lut shadow) :
      Act checks s .writeTable { s with
        lut := { s.lut with tables := update s.lut.tables shadow lut.table }
        writer := .tableWritten lut shadow }
  | writeBackends {lut shadow} (hw : s.writer = .tableWritten lut shadow) :
      Act checks s .writeBackends { s with
        lut := { s.lut with backends := update s.lut.backends shadow lut.backends }
        writer := .written lut shadow }
  | bump {lut shadow} (hw : s.writer = .written lut shadow) :
      Act checks s .bump { s with
        lut := { s.lut with version := s.lut.version + 1 }
        writer := .versioned lut shadow (s.lut.version + 1) }
  | crashBump {lut shadow} (hw : s.writer = .written lut shadow)
      (hMax : 2 ^ 64 ≤ s.lut.version.toNat + 1) :
      Act checks s .bump { s with
        lut := { s.lut with version := s.lut.version + 1 }
        writer := .panicked shadow }
  | flip {lut shadow version} (hw : s.writer = .versioned lut shadow version) :
      Act checks s .flip { s with
        lut := { s.lut with active := shadow }
        writer := .idle
        returned := s.returned ++ [(version, lut.backends)] }
  | spawn : Act checks s .spawn { s with readers := s.readers ++ [.idle] }
  | readActive {r} (hr : s.readers[r]? = some .idle) :
      Act checks s (.readActive r) (s.setReader r (.loaded s.lut.active) s.lut.readers)
  | enter {r i} (hr : s.readers[r]? = some (.loaded i)) :
      Act checks s (.enter r) (s.setReader r (.counted i) (s.incremented i))
  | confirm {r i} (hr : s.readers[r]? = some (.counted i)) (hActive : s.lut.active = i) :
      Act checks s (.recheck r) (s.setReader r (.checked i) s.lut.readers)
  | miss {r i} (hr : s.readers[r]? = some (.counted i)) :
      Act checks s (.recheck r) (s.setReader r (.stale i) s.lut.readers)
  | leave {r i} (hr : s.readers[r]? = some (.stale i)) :
      Act checks s (.leave r) (s.setReader r .idle (s.decremented i))
  | readVersion {r i} (hr : s.readers[r]? = some (.checked i)) :
      Act checks s (.readVersion r) { s.setReader r (.held i s.lut.version) s.lut.readers with
        snapshots := s.snapshots ++ [(s.lut.version, s.lut.buffer i)] }
  | release {r i version} (hr : s.readers[r]? = some (.held i version)) :
      Act checks s (.release r) (s.setReader r .idle (s.decremented i))

variable {checks : Bool} {s s' : LutSharing} {e : LutEvent}

theorem act_of_step (h : s.step checks e = some s') : Act checks s e s' := by
  cases e with
  | spin =>
    unfold step at h
    dsimp only at h
    split at h
    · rename_i hw
      cases h
      split
      · exact .spin hw
      · rename_i hNone
        exact .pass hw (not_not.mp hNone)
    · cases h
  | build fuel =>
    unfold step at h
    dsimp only at h
    split at h
    · rename_i hw
      split at h
      · cases h
      · cases h
        exact .crashBuild hw
      · rename_i hBuild
        cases h
        exact .build hw hBuild
    · cases h
  | bump =>
    unfold step at h
    dsimp only at h
    split at h
    · rename_i hw
      split at h
      · rename_i hAdd
        cases h
        obtain rfl := addU64_eq_ok hAdd
        exact .bump hw
      · rename_i hAdd
        cases h
        refine .crashBump hw ?_
        by_contra hLess
        rw [addU64_of_lt (by change _ + 1 < 2 ^ 64; omega)] at hAdd
        cases hAdd
    · cases h
  | spawn =>
    cases h
    exact .spawn
  | recheck r =>
    unfold step at h
    dsimp only at h
    split at h
    · rename_i hr
      cases h
      split
      · rename_i hActive
        exact .confirm hr hActive
      · exact .miss hr
    · cases h
  -- the other events have one outcome, and its condition is what the step matches on
  | load _ | writeTable | writeBackends | flip | readActive _ | enter _ | leave _
  | readVersion _ | release _ =>
    unfold step at h
    dsimp only at h
    split at h
    · cases h
      constructor
      assumption
    · cases h

/-! ## Calls that are not disturbed -/

section Undisturbed

variable {s₀ : LutSharing}

section

variable (hRun : Run (step checks) Always s₀ s)

include hRun

theorem steps_build {fuel backends table} (hIdle : s.writer = .idle)
    (hNone : s.lut.readers (!s.lut.active) = 0)
    (hBuild : buildLut checks s.lut.m backends fuel = some (ok table)) :
    Run (step checks) Always s₀ { s with
      writer := .built ⟨backends, table⟩ !s.lut.active
      calls := s.calls ++ [⟨backends, table⟩] } := by
  have hLoaded : Run (step checks) Always s₀ { s with writer := .loaded backends !s.lut.active } :=
    hRun.step (e := .load backends) trivial (by simp [step, hIdle])
  have hFree : Run (step checks) Always s₀ { s with writer := .free backends !s.lut.active } :=
    hLoaded.step (e := .spin) trivial (by simp [step, hNone])
  exact hFree.step (e := .build fuel) trivial (by simp [step, hBuild])

/-- The steps of a call that is not disturbed are `publish`. -/
theorem steps_publish {fuel backends lut version} (hIdle : s.writer = .idle)
    (h : s.lut.publish checks fuel backends = some (ok (lut, version))) :
    Run (step checks) Always s₀ { s with
      lut
      calls := s.calls ++ [lut.buffer lut.active]
      returned := s.returned ++ [(version, backends)] } := by
  obtain ⟨hNone, table, hBuild, hAdd, rfl⟩ := LutPublisher.of_publish h
  have hBuilt := steps_build hRun hIdle hNone hBuild
  have hTable := hBuilt.step (e := .writeTable) trivial rfl
  have hWritten := hTable.step (e := .writeBackends) trivial rfl
  have hVersioned := hWritten.step (e := .bump) trivial (by
    simp only [step, hAdd]
    rfl)
  have hFlipped := hVersioned.step (e := .flip) trivial rfl
  rw [LutPublisher.buffer_flipped]
  rwa [← hIdle] at hFlipped

def withSnapshot (s : LutSharing) : LutSharing :=
  { s with
    lut := { s.lut with readers := s.incremented s.lut.active }
    readers := s.readers ++ [.held s.lut.active s.lut.version]
    snapshots := s.snapshots ++ [(s.lut.version, s.lut.buffer s.lut.active)] }

theorem steps_snapshot : Run (step checks) Always s₀ s.withSnapshot := by
  have hIdle := hRun.step (e := .spawn) trivial rfl
  have hLoaded : Run (step checks) Always s₀
      { s with readers := s.readers ++ [.loaded s.lut.active] } :=
    hIdle.step (e := .readActive s.readers.length) trivial (by simp [step, setReader])
  have hCounted : Run (step checks) Always s₀ { s with
      lut := { s.lut with readers := s.incremented s.lut.active }
      readers := s.readers ++ [.counted s.lut.active] } :=
    hLoaded.step (e := .enter s.readers.length) trivial (by simp [step, setReader, incremented])
  have hChecked : Run (step checks) Always s₀ { s with
      lut := { s.lut with readers := s.incremented s.lut.active }
      readers := s.readers ++ [.checked s.lut.active] } :=
    hCounted.step (e := .recheck s.readers.length) trivial (by simp [step, setReader])
  exact hChecked.step (e := .readVersion s.readers.length) trivial
    (by simp [step, setReader, withSnapshot, LutPublisher.buffer])

def withSnapshots (s : LutSharing) (n : Nat) : LutSharing :=
  { s with
    lut := { s.lut with
      readers := update s.lut.readers s.lut.active
        (s.lut.readers s.lut.active + UInt64.ofNat n) }
    readers := s.readers ++ replicate n (.held s.lut.active s.lut.version)
    snapshots := s.snapshots ++ replicate n (s.lut.version, s.lut.buffer s.lut.active) }

omit hRun in
theorem withSnapshot_withSnapshots (s : LutSharing) (n : Nat) :
    (s.withSnapshots n).withSnapshot = s.withSnapshots (n + 1) := by
  have hCount : s.lut.readers s.lut.active + UInt64.ofNat n + 1 =
      s.lut.readers s.lut.active + UInt64.ofNat (n + 1) := by
    rw [UInt64.ofNat_add, ← UInt64.add_assoc]
    rfl
  simp [withSnapshots, withSnapshot, incremented, LutPublisher.buffer, replicate_succ',
    ← append_assoc, hCount]

theorem steps_snapshots (n : Nat) : Run (step checks) Always s₀ (s.withSnapshots n) := by
  induction n with
  | zero =>
    have hNothing : s.withSnapshots 0 = s := by simp [withSnapshots]
    rwa [hNothing]
  | succ n ih => exact withSnapshot_withSnapshots s n ▸ steps_snapshot ih

end

end Undisturbed

/-! ## Nobody looks at the buffer that is written -/

def Progress (s : LutSharing) : Prop :=
  match s.writer with
  | .built lut _ => lut ∈ s.calls
  | .tableWritten lut shadow => lut ∈ s.calls ∧ s.lut.tables shadow = lut.table
  | .written lut shadow => lut ∈ s.calls ∧ s.lut.buffer shadow = lut
  | .versioned lut shadow _ => lut ∈ s.calls ∧ s.lut.buffer shadow = lut
  | _ => True

structure Guarded (s : LutSharing) : Prop where
  count : ∀ i, (s.lut.readers i).toNat = s.readers.countP (Reader.counts i)
  side : ∀ i, s.writer.side = some i → i ≠ s.lut.active
  active : s.lut.buffer s.lut.active ∈ s.calls
  progress : s.Progress
  seen : ∀ (r : Nat) (x : Reader) (i : Bool), s.readers[r]? = some x → x.sees i = true →
    s.lut.buffer i ∈ s.calls ∧ s.writer.target ≠ some i

variable {lut : LutPublisher} {counts : Bool → UInt64} {old x : Reader} {r : Nat} {i : Bool}
  {writer : Writer} {version : UInt64}

theorem guarded_start (hNone : ∀ i, lut.readers i = 0) : (start lut).Guarded where
  count i := by
    change (lut.readers i).toNat = 0
    rw [hNone]
    rfl
  side := nofun
  active := mem_singleton_self _
  progress := trivial
  seen := nofun

section

variable (h : s.Guarded)

include h

theorem Guarded.setReader {new : Reader} (hr : s.readers[r]? = some old)
    (hCount : ∀ i, (counts i).toNat + (if old.counts i then 1 else 0) =
      (s.lut.readers i).toNat + if new.counts i then 1 else 0)
    (hSees : ∀ i, new.sees i = true → s.lut.buffer i ∈ s.calls ∧ s.writer.target ≠ some i) :
    (s.setReader r new counts).Guarded where
  count i := by
    have hSet := countP_set (p := Reader.counts i) hr new
    have hOld := h.count i
    have hNew := hCount i
    change (counts i).toNat = (s.readers.set r new).countP (Reader.counts i)
    omega
  side := h.side
  active := h.active
  progress := h.progress
  seen r' x i hx hSeen := by
    obtain ⟨rfl, rfl⟩ | ⟨-, hOld⟩ := getElem?_set_eq_some hx
    · exact hSees i hSeen
    · exact h.seen r' x i hOld hSeen

theorem Guarded.moveReader (new : Reader) (hr : s.readers[r]? = some old)
    (hCount : ∀ i, new.counts i = old.counts i)
    (hSees : ∀ i, new.sees i = true → s.lut.buffer i ∈ s.calls ∧ s.writer.target ≠ some i) :
    (s.setReader r new s.lut.readers).Guarded :=
  h.setReader hr (fun i => by rw [hCount]) hSees

theorem Guarded.dropReader (hr : s.readers[r]? = some old) (hCount : ∀ j, old.counts j = (i == j)) :
    (s.setReader r .idle (s.decremented i)).Guarded := by
  refine h.setReader hr (fun j => ?_) nofun
  have hPos : 0 < (s.lut.readers i).toNat := by
    rw [h.count i, countP_pos_iff]
    exact ⟨old, mem_of_getElem? hr, by rw [hCount]; exact beq_self_eq_true i⟩
  rw [hCount]
  by_cases hSame : j = i
  · subst hSame
    have hOne : (1 : UInt64) ≤ s.lut.readers j := UInt64.le_iff_toNat_le.mpr hPos
    rw [decremented, update_self, UInt64.toNat_sub_of_le _ _ hOne]
    change (s.lut.readers j).toNat - 1 + (if (j == j) = true then 1 else 0) = _ + 0
    rw [if_pos (beq_self_eq_true j)]
    omega
  · rw [decremented, update_of_ne hSame, if_neg (by simpa using Ne.symm hSame)]
    rfl

theorem Guarded.write {shadow} (hTarget : s.writer.target = some shadow) {calls}
    (hReaders : lut.readers = s.lut.readers) (hActive : lut.active = s.lut.active)
    (hBuffer : ∀ i, i ≠ shadow → lut.buffer i = s.lut.buffer i) (hCalls : ∀ c ∈ s.calls, c ∈ calls)
    (hWriter : writer.side = some shadow)
    (hProgress : ({ s with lut, writer, calls } : LutSharing).Progress) :
    ({ s with lut, writer, calls } : LutSharing).Guarded where
  count i := by
    change (lut.readers i).toNat = _
    rw [hReaders]
    exact h.count i
  side i hi := by
    change i ≠ lut.active
    rw [hActive]
    obtain rfl : shadow = i := Option.some_inj.mp (hWriter.symm.trans hi)
    exact h.side shadow (Writer.side_of_target hTarget)
  active := by
    have hOther : s.lut.active ≠ shadow := (h.side shadow (Writer.side_of_target hTarget)).symm
    change lut.buffer lut.active ∈ calls
    rw [hActive, hBuffer _ hOther]
    exact hCalls _ h.active
  progress := hProgress
  seen r x i hx hSeen := by
    obtain ⟨hOld, hFree⟩ := h.seen r x i hx hSeen
    have hOther : i ≠ shadow := by
      rintro rfl
      exact hFree hTarget
    refine ⟨?_, fun hNow => ?_⟩
    · change lut.buffer i ∈ calls
      rw [hBuffer i hOther]
      exact hCalls _ hOld
    · exact hOther (Option.some_inj.mp ((Writer.side_of_target hNow).symm.trans hWriter))

theorem Guarded.act (hAct : Act checks s e s') (hRoom : s.uncrowded e = true) : s'.Guarded := by
  cases hAct with
  | load hw =>
    refine ⟨h.count, ?_, h.active, trivial,
      fun r x i hx hSeen => ⟨(h.seen r x i hx hSeen).1, nofun⟩⟩
    intro i hi
    cases hi
    exact Bool.not_ne_self _
  | spin hw =>
    refine ⟨h.count, ?_, h.active, trivial,
      fun r x i hx hSeen => ⟨(h.seen r x i hx hSeen).1, nofun⟩⟩
    exact fun i hi => h.side i (by rw [hw]; exact hi)
  | @pass backends shadow hw hNone =>
    refine ⟨h.count, fun i hi => h.side i (by rw [hw]; exact hi), h.active, trivial, ?_⟩
    intro r x i hx hSeen
    refine ⟨(h.seen r x i hx hSeen).1, fun hNow => ?_⟩
    -- a reader of the buffer would be counted
    obtain rfl : shadow = i := Option.some_inj.mp hNow
    have hCount := h.count shadow
    rw [hNone] at hCount
    have hZero := countP_eq_zero.mp hCount.symm x (mem_of_getElem? hx)
    exact hZero (Reader.counts_of_sees hSeen)
  | build hw =>
    refine h.write (by rw [hw]; rfl) rfl rfl (fun _ _ => rfl)
      (fun c hc => mem_append_left _ hc) rfl ?_
    exact mem_append_right _ (mem_singleton_self _)
  | crashBuild hw | crashBump hw _ =>
    exact h.write (by rw [hw]; rfl) rfl rfl (fun _ _ => rfl) (fun _ => id) rfl trivial
  | @writeTable lut shadow hw =>
    have hProgress := h.progress
    rw [Progress, hw] at hProgress
    refine h.write (by rw [hw]; rfl) rfl rfl (fun i hi => ?_) (fun _ => id) rfl
      ⟨hProgress, update_self ..⟩
    simp [LutPublisher.buffer, update_of_ne hi]
  | @writeBackends lut shadow hw =>
    have hProgress := h.progress
    rw [Progress, hw] at hProgress
    refine h.write (by rw [hw]; rfl) rfl rfl (fun i hi => ?_) (fun _ => id) rfl ⟨hProgress.1, ?_⟩
    · simp [LutPublisher.buffer, update_of_ne hi]
    · simp [LutPublisher.buffer, hProgress.2]
  | bump hw =>
    have hProgress := h.progress
    rw [Progress, hw] at hProgress
    exact h.write (by rw [hw]; rfl) rfl rfl (fun _ _ => rfl) (fun _ => id) rfl hProgress
  | flip hw =>
    have hProgress := h.progress
    rw [Progress, hw] at hProgress
    refine ⟨h.count, nofun, ?_, trivial, fun r x i hx hSeen => ⟨(h.seen r x i hx hSeen).1, nofun⟩⟩
    exact hProgress.2 ▸ hProgress.1
  | spawn =>
    refine ⟨fun i => ?_, h.side, h.active, h.progress, fun r x i hx hSeen => ?_⟩
    · change _ = (s.readers ++ [Reader.idle]).countP _
      rw [countP_append, h.count i]
      rfl
    · rcases getElem?_concat_eq_some hx with hOld | ⟨-, rfl⟩
      · exact h.seen r x i hOld hSeen
      · cases hSeen
  | readActive hr | miss hr => exact h.moveReader _ hr (fun _ => rfl) nofun
  | @enter r i hr =>
    refine h.setReader hr (fun j => ?_) nofun
    have hLess : (s.lut.readers i).toNat + 1 < 2 ^ 64 := by simpa [uncrowded, hr] using hRoom
    change (s.incremented i j).toNat + 0 = _ + if (i == j) = true then 1 else 0
    by_cases hSame : j = i
    · subst hSame
      rw [incremented, update_self, if_pos (beq_self_eq_true j), UInt64.toNat_add]
      exact Nat.mod_eq_of_lt hLess
    · rw [incremented, update_of_ne hSame, if_neg (by simpa using Ne.symm hSame)]
  | confirm hr hActive =>
    refine h.moveReader _ hr (fun _ => rfl) fun j hj => ?_
    obtain rfl : _ = j := by simpa [Reader.sees] using hj
    subst hActive
    exact ⟨h.active, fun hTarget => h.side _ (Writer.side_of_target hTarget) rfl⟩
  | leave hr | release hr => exact h.dropReader hr fun _ => rfl
  | readVersion hr =>
    have hKept := h.moveReader (.held _ s.lut.version) hr (fun _ => rfl)
      fun j hj => h.seen _ _ j hr hj
    exact ⟨hKept.count, hKept.side, hKept.active, hKept.progress, hKept.seen⟩

/-! ## A snapshot is what one call has built -/

theorem Guarded.undisturbed (hAct : Act checks s e s') (hx : s.readers[r]? = some x)
    (hSeen : x.sees i = true) : s.writesTo e ≠ some i ∧ s'.lut.buffer i = s.lut.buffer i := by
  obtain ⟨-, hFree⟩ := h.seen r x i hx hSeen
  cases hAct with
  | @writeTable lut shadow hw | @writeBackends lut shadow hw =>
    rw [hw] at hFree
    have hOther : i ≠ shadow := fun hSame => hFree (congrArg some hSame.symm)
    refine ⟨by rw [writesTo, hw]; exact hFree, ?_⟩
    simp [LutPublisher.buffer, update_of_ne hOther]
  | _ => exact ⟨nofun, rfl⟩

end

/-- Snapshots are complete, and show what they showed when they were returned. -/
structure Faithful (s : LutSharing) : Prop where
  complete : ∀ x ∈ s.snapshots, x.2 ∈ s.calls
  same : ∀ (r : Nat) (i : Bool) (version : UInt64), s.readers[r]? = some (.held i version) →
    (version, s.lut.buffer i) ∈ s.snapshots

theorem Faithful.keep (h : s.Faithful) (hGuarded : s.Guarded) (hAct : Act checks s e s')
    (hSnapshots : s'.snapshots = s.snapshots) (hCalls : ∀ c ∈ s.calls, c ∈ s'.calls)
    (hHeld : ∀ (r : Nat) (i : Bool) (version : UInt64), s'.readers[r]? = some (.held i version) →
      s.readers[r]? = some (.held i version)) : s'.Faithful where
  complete x hx := hCalls _ (h.complete x (hSnapshots ▸ hx))
  same r i version hr := by
    have hOld := hHeld r i version hr
    obtain ⟨-, hBuffer⟩ := hGuarded.undisturbed hAct hOld (i := i) (beq_self_eq_true i)
    rw [hBuffer, hSnapshots]
    exact h.same r i version hOld

theorem held_of_set {l : List Reader} {r' : Nat} (h : (l.set r x)[r']? = some (.held i version))
    (hx : ∀ i version, x ≠ .held i version) : l[r']? = some (.held i version) := by
  obtain ⟨-, hSame⟩ | ⟨-, hOld⟩ := getElem?_set_eq_some h
  · exact absurd hSame.symm (hx i version)
  · exact hOld

theorem Faithful.act (h : s.Faithful) (hGuarded : s.Guarded) (hAct : Act checks s e s') :
    s'.Faithful := by
  have hKeep := h.keep hGuarded hAct
  cases hAct with
  | load | spin | pass | crashBuild | crashBump | writeTable | writeBackends | bump | flip =>
    exact hKeep rfl (fun _ => id) fun _ _ _ => id
  | build => exact hKeep rfl (fun _ hc => mem_append_left _ hc) fun _ _ _ => id
  | spawn =>
    refine hKeep rfl (fun _ => id) fun r i version hr => ?_
    rcases getElem?_concat_eq_some hr with hOld | ⟨-, hNew⟩
    · exact hOld
    · cases hNew
  | readActive | enter | confirm | miss | leave | release =>
    exact hKeep rfl (fun _ => id) fun _ _ _ hr => held_of_set hr nofun
  | @readVersion r i hr =>
    obtain ⟨hComplete, -⟩ := hGuarded.seen r _ i hr (beq_self_eq_true i)
    refine ⟨forall_mem_concat h.complete hComplete, fun r' j version hr' => ?_⟩
    obtain ⟨-, hSame⟩ | ⟨-, hOld⟩ := getElem?_set_eq_some hr'
    · cases hSame
      exact mem_append_right _ (mem_singleton_self _)
    · exact mem_append_left _ (h.same r' j version hOld)

theorem calls_built {fuel m initial} (hNew : LutPublisher.new checks fuel m initial = some (ok lut))
    (hRun : Run (step checks) Always (start lut) s) :
    s.lut.m = m ∧ ∀ c ∈ s.calls, ∃ fuel, buildLut checks m c.backends fuel = some (ok c.table) := by
  obtain ⟨table, hBuild, hm, hFirst, -⟩ := LutPublisher.of_new hNew
  refine hRun.invariant (I := fun s => s.lut.m = m ∧ ∀ c ∈ s.calls, ∃ fuel,
    buildLut checks m c.backends fuel = some (ok c.table)) ⟨hm, ?_⟩ ?_
  · intro c hc
    obtain rfl := mem_singleton.mp hc
    exact ⟨fuel, by rw [hFirst, hBuild]⟩
  · rintro s s' e ⟨hm, hCalls⟩ - hStep
    cases act_of_step hStep with
    | build _ hBuild =>
      rw [hm] at hBuild
      exact ⟨hm, forall_mem_concat hCalls ⟨_, hBuild⟩⟩
    | _ => exact ⟨hm, hCalls⟩

/-- **Snapshots are stable.** In every run from a new publisher in which fewer than `2 ^ 64` readers
are counted for a buffer (`uncrowded`), each snapshot is what one call has built. What a reader
holds is the snapshot of its version, and no step writes to that buffer. -/
theorem snapshot_stable {fuel m : Nat} {initial : List UInt32} {lut : LutPublisher}
    (hNew : LutPublisher.new checks fuel m initial = some (ok lut))
    (hRun : Run (step checks) (fun s e => s.uncrowded e = true) (start lut) s) :
    (∀ x ∈ s.snapshots, x.2 ∈ s.calls ∧
      ∃ fuel, buildLut checks m x.2.backends fuel = some (ok x.2.table)) ∧
    ∀ (r : Nat) (i : Bool) (version : UInt64), s.readers[r]? = some (.held i version) →
      (version, s.lut.buffer i) ∈ s.snapshots ∧
      ∀ e s', s.step checks e = some s' → s.writesTo e ≠ some i := by
  have hInv : s.Guarded ∧ s.Faithful := by
    obtain ⟨-, -, -, -, hNone, -⟩ := LutPublisher.of_new hNew
    refine hRun.invariant (I := fun s => s.Guarded ∧ s.Faithful)
      ⟨guarded_start hNone, nofun, nofun⟩ ?_
    intro s s' e h hRoom hStep
    have hAct := act_of_step hStep
    exact ⟨h.1.act hAct hRoom, h.2.act h.1 hAct⟩
  obtain ⟨-, hBuilt⟩ := calls_built hNew (hRun.mono fun _ _ _ => trivial)
  refine ⟨fun x hx => ⟨hInv.2.complete x hx, hBuilt _ (hInv.2.complete x hx)⟩, ?_⟩
  intro r i version hr
  refine ⟨hInv.2.same r i version hr, fun e s' hStep => ?_⟩
  exact (hInv.1.undisturbed (act_of_step hStep) hr (beq_self_eq_true i)).1

def tenLut : LutPublisher where
  m := 2
  backends i := if i then [] else [10]
  tables i := if i then [u32Max, u32Max] else [0, 0]
  readers _ := 0
  active := false
  version := 1

theorem new_ten : LutPublisher.new true 5 2 [10] = some (ok tenLut) := by
  have hBuild : buildLut true 2 [10] 5 = some (ok [0, 0]) := by decide +kernel
  rw [LutPublisher.new, hBuild]
  rfl

/-- A call of `publish` waits for a snapshot to be dropped. -/
theorem snapshot_stable_ten : ∃ s, Run (step true) (fun s e => s.uncrowded e = true)
    (start tenLut) s ∧ s.readers[0]? = some (.held false 1) ∧
      (∃ fuel, buildLut true 2 [10] fuel = some (ok [0, 0])) ∧
      ∀ e s', s.step true e = some s' → s.writesTo e ≠ some false := by
  obtain ⟨s, hRun, hTest⟩ := exists_run_of_exec (step true) (fun s e => s.uncrowded e = true)
    (start tenLut)
    [.spawn, .readActive 0, .enter 0, .recheck 0, .readVersion 0, .load [20], .spin, .build 5,
      .writeTable, .writeBackends, .bump, .flip, .load [30], .spin]
    (fun s => s.readers[0]? == some (.held false 1) &&
      decide ((1, ⟨[10], [0, 0]⟩) ∈ s.snapshots)) (by decide +kernel)
  simp only [Bool.and_eq_true, beq_iff_eq, decide_eq_true_eq] at hTest
  obtain ⟨hSnapshots, hHeld⟩ := snapshot_stable new_ten hRun
  exact ⟨s, hRun, hTest.1, (hSnapshots _ hTest.2).2, (hHeld 0 false 1 hTest.1).2⟩

/-- `2 ^ 64` snapshots of the first buffer: the second call of `publish` writes it. -/
theorem not_snapshot_stable : ∃ s s', Run (step true) Always (start tenLut) s ∧
    s.readers[0]? = some (.held false 1) ∧
    (∀ x ∈ s.snapshots, x = (1, ⟨[10], [0, 0]⟩)) ∧
    s.step true .writeBackends = some s' ∧ s.writesTo .writeBackends = some false ∧
    s'.readers[0]? = some (.held false 1) ∧ s'.lut.buffer false = ⟨[30], [0, 0]⟩ := by
  obtain ⟨n, hPos, hn⟩ : ∃ n, 0 < n ∧ UInt64.ofNat n = 0 := ⟨2 ^ 64, by decide, rfl⟩
  have hCrowd : Run (step true) Always (start tenLut) ((start tenLut).withSnapshots n) :=
    steps_snapshots .start n
  have hLut : ((start tenLut).withSnapshots n).lut = tenLut := by
    simp [withSnapshots, hn, start]
  have hFirst : ((start tenLut).withSnapshots n).lut.publish true 5 [20] =
      some (ok (tenLut.flipped ⟨[20], [0, 0]⟩, 2)) := by
    rw [hLut]
    have hBuild : buildLut true tenLut.m [20] 5 = some (ok [0, 0]) := by decide +kernel
    rw [LutPublisher.publish, if_neg (by decide), hBuild]
    rfl
  have hIdle := steps_publish hCrowd rfl hFirst
  have hBuild : buildLut true 2 [30] 5 = some (ok [0, 0]) := by decide +kernel
  have hBuilt := steps_build hIdle rfl rfl hBuild
  have hHeld : (replicate n (Reader.held false 1))[0]? = some (.held false 1) := by
    rw [getElem?_replicate, if_pos hPos]
  have hTable := hBuilt.step (e := .writeTable) trivial rfl
  refine ⟨_, _, hTable, hHeld, fun x hx => ?_, rfl, rfl, hHeld, rfl⟩
  exact eq_of_mem_replicate hx

/-! ## Versions -/

/-- The version of the table: the constructor's is one, and each call's is one more. -/
def Names (s : LutSharing) (version : UInt64) (lut : Lut) : Prop :=
  0 < version.toNat ∧ s.calls[version.toNat - 1]? = some lut

theorem Names.unique {a b} (ha : s.Names version a) (hb : s.Names version b) : a = b :=
  Option.some_inj.mp (ha.2.symm.trans hb.2)

theorem Names.append {lut more} (h : s.Names version lut) (hCalls : s'.calls = s.calls ++ more) :
    s'.Names version lut := by
  refine ⟨h.1, ?_⟩
  obtain ⟨hLt, -⟩ := List.getElem?_eq_some_iff.mp h.2
  rw [hCalls, List.getElem?_append_left hLt, h.2]

structure Named (s : LutSharing) : Prop where
  length : s.calls.length = s.lut.version.toNat + s.writer.pending
  active : s.writer.ahead = false → s.Names s.lut.version (s.lut.buffer s.lut.active)
  last : ∀ lut, s.writer.lut = some lut → s.calls.getLast? = some lut
  version : ∀ lut shadow version, s.writer = .versioned lut shadow version → version = s.lut.version
  checked : ∀ (r : Nat) (i : Bool), s.readers[r]? = some (.checked i) →
    i = s.lut.active ∧ s.writer.ahead = false
  snapshots : ∀ x ∈ s.snapshots, s.Names x.1 x.2
  returned : ∀ x ∈ s.returned, ∃ lut, s.Names x.1 lut ∧ lut.backends = x.2

theorem Named.work (h : s.Named) {calls more} (hCalls : calls = s.calls ++ more)
    (hAhead : writer.ahead = s.writer.ahead) (hVersion : lut.version = s.lut.version)
    (hActive : lut.active = s.lut.active)
    (hBuffer : lut.buffer s.lut.active = s.lut.buffer s.lut.active)
    (hPending : more.length + s.writer.pending = writer.pending)
    (hLast : ∀ l, writer.lut = some l → calls.getLast? = some l)
    (hVersioned : ∀ l shadow version, writer ≠ .versioned l shadow version) :
    ({ s with lut, writer, calls } : LutSharing).Named where
  length := by
    have hOld := h.length
    change calls.length = lut.version.toNat + writer.pending
    rw [hCalls, length_append, hVersion]
    omega
  active hNot := by
    change LutSharing.Names _ lut.version (lut.buffer lut.active)
    rw [hVersion, hActive, hBuffer]
    exact (h.active (hAhead.symm.trans hNot)).append hCalls
  last := hLast
  version l shadow version hw := absurd hw (hVersioned l shadow version)
  checked r i hr := by
    obtain ⟨hi, hNot⟩ := h.checked r i hr
    exact ⟨hi.trans hActive.symm, hAhead.trans hNot⟩
  snapshots x hx := (h.snapshots x hx).append hCalls
  returned x hx := by
    obtain ⟨l, hName, hBackends⟩ := h.returned x hx
    exact ⟨l, hName.append hCalls, hBackends⟩

theorem Named.wait (h : s.Named) (hAhead : writer.ahead = s.writer.ahead)
    (hPending : s.writer.pending = writer.pending) (hLut : writer.lut = none) :
    ({ s with writer } : LutSharing).Named := by
  have hNothing : ∀ l, writer.lut = some l → s.calls.getLast? = some l := by
    intro l hl
    rw [hLut] at hl
    cases hl
  refine h.work (append_nil _).symm hAhead rfl rfl rfl ?_ hNothing ?_
  · exact (Nat.zero_add _).trans hPending
  · rintro l shadow version rfl
    cases hLut

theorem Named.setReader (h : s.Named)
    (hx : ∀ i, x = .checked i → i = s.lut.active ∧ s.writer.ahead = false) :
    (s.setReader r x counts).Named where
  length := h.length
  active := h.active
  last := h.last
  version := h.version
  checked r' i hr' := by
    obtain ⟨-, hSame⟩ | ⟨-, hOld⟩ := getElem?_set_eq_some hr'
    · exact hx i hSame.symm
    · exact h.checked r' i hOld
  snapshots := h.snapshots
  returned := h.returned

theorem Named.act (h : s.Named) (hGuarded : s.Guarded) (hAct : Act checks s e s')
    (hCalm : s.calm e = true) : s'.Named := by
  cases hAct with
  | load hw | pass hw | crashBuild hw => exact h.wait (by rw [hw]; rfl) (by rw [hw]; rfl) rfl
  | spin hw => exact h.wait (by rw [hw]) (by rw [hw]) rfl
  | build hw _ =>
    refine h.work rfl (by rw [hw]; rfl) rfl rfl rfl (by rw [hw]; rfl) (fun l hl => ?_) nofun
    rw [getLast?_append]
    exact hl
  | @writeTable lut shadow hw | @writeBackends lut shadow hw =>
    have hOther : s.lut.active ≠ shadow := (hGuarded.side shadow (by rw [hw]; rfl)).symm
    refine h.work (append_nil _).symm (by rw [hw]; rfl) rfl rfl ?_ (by rw [hw]; rfl)
      (fun l hl => h.last l (by rw [hw]; exact hl)) nofun
    simp [LutPublisher.buffer, update_of_ne hOther]
  | @bump lut shadow hw =>
    simp only [calm, Bool.and_eq_true, Bool.not_eq_true', any_eq_false, decide_eq_true_eq] at hCalm
    obtain ⟨hNobody, hLess⟩ := hCalm
    have hNext := toNat_add_one hLess
    refine ⟨?_, nofun, fun l hl => h.last l (by rw [hw]; exact hl), ?_, ?_, h.snapshots, h.returned⟩
    · have hOld := h.length
      rw [hw] at hOld
      change s.calls.length = (s.lut.version + 1).toNat + 0
      rw [hNext]
      exact hOld
    · rintro l σ version hSame
      cases hSame
      rfl
    · intro r i hr
      exact absurd rfl (hNobody _ (mem_of_getElem? hr))
  | crashBump hw hMax =>
    simp only [calm, Bool.and_eq_true, decide_eq_true_eq] at hCalm
    omega
  | @flip lut shadow version hw =>
    have hLast := h.last lut (by rw [hw]; rfl)
    have hLength := h.length
    have hProgress := hGuarded.progress
    rw [hw] at hLength
    rw [Progress, hw] at hProgress
    have hPos : 0 < s.calls.length := length_pos_of_mem hProgress.1
    have hName : s.Names s.lut.version lut := by
      refine ⟨by change _ = _ + 0 at hLength; omega, ?_⟩
      rw [getLast?_eq_getElem?] at hLast
      rwa [show s.lut.version.toNat = s.calls.length from hLength.symm]
    refine ⟨hLength, fun _ => ?_, nofun, nofun, ?_, h.snapshots, ?_⟩
    · change LutSharing.Names _ s.lut.version (s.lut.buffer shadow)
      rw [hProgress.2]
      exact hName
    · intro r i hr
      obtain ⟨-, hNot⟩ := h.checked r i hr
      rw [hw] at hNot
      cases hNot
    · refine forall_mem_concat h.returned ⟨lut, ?_, rfl⟩
      rw [h.version lut shadow version hw]
      exact hName
  | spawn =>
    refine ⟨h.length, h.active, h.last, h.version, fun r i hr => ?_, h.snapshots, h.returned⟩
    rcases getElem?_concat_eq_some hr with hOld | ⟨-, hNew⟩
    · exact h.checked r i hOld
    · cases hNew
  | readActive | enter | miss | leave | release => exact h.setReader nofun
  | @confirm r i hr hActive =>
    refine h.setReader fun j hj => ?_
    cases hj
    refine ⟨hActive.symm, ?_⟩
    simpa [calm, hr, hActive] using hCalm
  | @readVersion r i hr =>
    obtain ⟨rfl, hNot⟩ := h.checked r i hr
    have hKept : (s.setReader r (.held s.lut.active s.lut.version) s.lut.readers).Named :=
      h.setReader nofun
    exact ⟨hKept.length, hKept.active, hKept.last, hKept.version, hKept.checked,
      forall_mem_concat h.snapshots (h.active hNot), hKept.returned⟩

theorem named_start (hFirst : lut.version = 1) : (start lut).Named := by
  have hOne : lut.version.toNat = 1 := congrArg UInt64.toNat hFirst
  refine ⟨hOne.symm, fun _ => ⟨hOne ▸ Nat.one_pos, ?_⟩, nofun, nofun, nofun, nofun, nofun⟩
  change [lut.buffer lut.active][lut.version.toNat - 1]? = _
  rw [hOne]
  rfl

/-- **A version names a table.** If, besides, the version does not change between a reader's second
look at the index and its look at the version (`calm`), snapshots of one version are equal, and have
the backends of the call of `publish` that has returned it. -/
theorem version_names {fuel m : Nat} {initial : List UInt32} {lut : LutPublisher}
    (hNew : LutPublisher.new checks fuel m initial = some (ok lut))
    (hRun : Run (step checks) (fun s e => s.uncrowded e = true ∧ s.calm e = true) (start lut) s) :
    (∀ x ∈ s.snapshots, ∀ y ∈ s.snapshots, x.1 = y.1 → x.2 = y.2) ∧
      ∀ x ∈ s.snapshots, ∀ y ∈ s.returned, x.1 = y.1 → x.2.backends = y.2 := by
  have hInv : s.Guarded ∧ s.Named := by
    obtain ⟨-, -, -, -, hNone, hFirst⟩ := LutPublisher.of_new hNew
    refine hRun.invariant (I := fun s => s.Guarded ∧ s.Named)
      ⟨guarded_start hNone, named_start hFirst⟩ ?_
    intro s s' e h hOk hStep
    have hAct := act_of_step hStep
    exact ⟨h.1.act hAct hOk.1, h.2.act h.1 hAct hOk.2⟩
  refine ⟨fun x hx y hy hSame => ?_, fun x hx y hy hSame => ?_⟩
  · have hName := hInv.2.snapshots x hx
    rw [hSame] at hName
    exact hName.unique (hInv.2.snapshots y hy)
  · have hName := hInv.2.snapshots x hx
    obtain ⟨l, hOwn, hBackends⟩ := hInv.2.returned y hy
    rw [hSame] at hName
    rw [hName.unique hOwn, hBackends]

/-- A snapshot before a call of `publish`, and one after it. -/
theorem version_names_ten : ∃ s, Run (step true)
    (fun s e => s.uncrowded e = true ∧ s.calm e = true) (start tenLut) s ∧
      s.snapshots = [(1, ⟨[10], [0, 0]⟩), (2, ⟨[20], [0, 0]⟩)] ∧ s.returned = [(2, [20])] ∧
      ∀ x ∈ s.snapshots, ∀ y ∈ s.snapshots, x.1 = y.1 → x.2 = y.2 := by
  obtain ⟨s, hRun, hTest⟩ := exists_run_of_exec (step true)
    (fun s e => s.uncrowded e = true ∧ s.calm e = true) (start tenLut)
    [.spawn, .readActive 0, .enter 0, .recheck 0, .readVersion 0, .load [20], .spin, .build 5,
      .writeTable, .writeBackends, .bump, .flip, .spawn, .readActive 1, .enter 1, .recheck 1,
      .readVersion 1]
    (fun s => decide (s.snapshots = [(1, ⟨[10], [0, 0]⟩), (2, ⟨[20], [0, 0]⟩)]) &&
      decide (s.returned = [(2, [20])])) (by decide +kernel)
  simp only [Bool.and_eq_true, decide_eq_true_eq] at hTest
  exact ⟨s, hRun, hTest.1, hTest.2, (version_names new_ten hRun).1⟩

/-- A reader reads the version after a call of `publish` has incremented it and before it has
stored the index. -/
theorem not_version_names : ∃ s, Run (step true) Always (start tenLut) s ∧
    s.returned = [(2, [20])] ∧ (2, ⟨[10], [0, 0]⟩) ∈ s.snapshots ∧
      (2, ⟨[20], [0, 0]⟩) ∈ s.snapshots := by
  obtain ⟨s, hRun, hTest⟩ := exists_run_of_exec (step true) Always (start tenLut)
    [.spawn, .readActive 0, .enter 0, .recheck 0, .load [20], .spin, .build 5, .writeTable,
      .writeBackends, .bump, .readVersion 0, .flip, .spawn, .readActive 1, .enter 1, .recheck 1,
      .readVersion 1]
    (fun s => decide (s.returned = [(2, [20])]) &&
      (decide ((2, ⟨[10], [0, 0]⟩) ∈ s.snapshots) &&
        decide ((2, ⟨[20], [0, 0]⟩) ∈ s.snapshots))) (by decide +kernel)
  simp only [Bool.and_eq_true, decide_eq_true_eq] at hTest
  exact ⟨s, hRun, hTest⟩

end LutSharing

end DirectWire.Xdp
