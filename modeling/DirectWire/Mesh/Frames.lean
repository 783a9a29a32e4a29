import DirectWire.Mesh.Node

/-!
# Mesh — frames out of turn

First how the state of a node is read back, and the rule for the dispatch on the
kind byte of a GM-PQ frame. Then frames that do not belong to the state of the
channel.
-/

namespace DirectWire.Mesh

open Lib Outcome

namespace Actor

variable {A : Algorithms} {env : Env A} {a a' b : Actor A} {id pid source : NodeId}
  {p p' : Peer A}

/-! ## Reading the state back -/

def recvSide (a : Actor A) (id : NodeId) : Option (Fixed 32 × UInt64) :=
  (a.peers.lookup id).bind fun p => p.session.map fun s => (s.recv, s.recvCtr)

def plainFrom (a : Actor A) (id : NodeId) : List Bytes :=
  a.effects.filterMap fun
    | .plain source inner => if source = id then some inner else none
    | _ => none

theorem getPeer_eq_ok : a.getPeer id = ok p ↔ a.peers.lookup id = some p := unwrap_eq_ok

@[simp] theorem lookup_setPeer_self : (a.setPeer id p).peers.lookup id = some p :=
  AList.lookup_insert _

theorem gmReady_eq_some {session} (h : a.gmReady p = some session) :
    a.build.gmPq = true ∧ p.gm = some (.ready session) := by
  unfold gmReady at h
  split at h
  · rename_i hBuild hGm
    cases h
    exact ⟨hBuild, hGm⟩
  · cases h

theorem onGmFrame_elim {Q : Outcome Empty (Actor A) → Prop} (kind : UInt8) (body : Bytes)
    (hIgnore : Q (ok a)) (hKick : Q (a.onGmKick env source))
    (hMsg1 : a.gmId.isSome → Q (a.onGmMsg1 env source body))
    (hCookie : Q (a.onGmCookie source body))
    (hRetry : a.gmId.isSome → Q (a.onGmMsg1Retry env source body))
    (hMsg2 : a.gmId.isSome → Q (a.onGmMsg2 env source body))
    (hMsg3 : a.gmId.isSome → Q (a.onGmMsg3 source body))
    (hData : Q (a.onGmData env source body)) : Q (a.onGmFrame env source kind body) := by
  unfold onGmFrame
  split
  · -- the channel is off, or its identity could not be generated
    exact hIgnore
  · rename_i hEnabled
    have hId : a.gmId.isSome := by
      simpa [Option.isSome_iff_ne_none] using (not_or.mp hEnabled).2
    split_ifs
    · exact hKick
    · exact hMsg1 hId
    · exact hCookie
    · exact hRetry hId
    · exact hMsg2 hId
    · exact hMsg3 hId
    · exact hData
    · exact hIgnore

/-! ## Frames out of turn -/

def controlKinds : List UInt8 := [Mesh.gmCookie, gmMsg1Retry, gmMsg2, gmMsg3]

def Awaits (kind : UInt8) : Option (GmState A) → Prop
  | some (.clientWaitCookie _ _) => kind = Mesh.gmCookie
  | some (.serverWaitRetry _) => kind = gmMsg1Retry
  | some (.clientWaitMsg2 _) => kind = gmMsg2
  | some (.serverWaitMsg3 _) => kind = gmMsg3
  | _ => False

section

variable {gm : Option (GmState A)}

theorem Awaits.cookie (h : Awaits Mesh.gmCookie gm) :
    ∃ init ePk, gm = some (.clientWaitCookie init ePk) := by
  unfold Awaits at h
  split at h <;> first | exact ⟨_, _, rfl⟩ | cases h

theorem Awaits.retry (h : Awaits gmMsg1Retry gm) : ∃ ePk, gm = some (.serverWaitRetry ePk) := by
  unfold Awaits at h
  split at h <;> first | exact ⟨_, rfl⟩ | cases h

theorem Awaits.msg2 (h : Awaits gmMsg2 gm) : ∃ init, gm = some (.clientWaitMsg2 init) := by
  unfold Awaits at h
  split at h <;> first | exact ⟨_, rfl⟩ | cases h

theorem Awaits.msg3 (h : Awaits gmMsg3 gm) : ∃ resp, gm = some (.serverWaitMsg3 resp) := by
  unfold Awaits at h
  split at h <;> first | exact ⟨_, rfl⟩ | cases h

end

theorem takeGm_eq (hPeer : a.peers.lookup source = some p) :
    a.takeGm source = ok (p.gm, a.setPeer source { p with gm := none }) := by
  rw [takeGm, getPeer_eq_ok.mpr hPeer, ok_bind]

theorem onGmFrame_out_of_turn (env : Env A) {kind} (body : Bytes) (hKind : kind ∈ controlKinds)
    (hOn : a.gmpq = true) (hId : a.gmId.isSome) (hPeer : a.peers.lookup source = some p)
    (hOut : ¬ Awaits kind p.gm) :
    a.onGmFrame env source kind body = ok (a.setPeer source { p with gm := none }) := by
  have hEnabled : ¬ (¬ a.gmpq = true ∨ a.gmId.isNone = true) := by
    simp [hOn, Option.isNone_eq_false_iff.mpr hId]
  rw [onGmFrame, if_neg hEnabled]
  simp only [controlKinds, List.mem_cons, List.not_mem_nil, or_false] at hKind
  -- each handler takes the state, and goes on only with its own
  rcases hKind with rfl | rfl | rfl | rfl
  · change a.onGmCookie source body = _
    simp only [onGmCookie, takeGm_eq hPeer, ok_bind]
    split
    · rename_i hGm
      exact absurd (by rw [hGm]; rfl) hOut
    · rfl
  · change a.onGmMsg1Retry env source body = _
    simp only [onGmMsg1Retry, takeGm_eq hPeer, ok_bind]
    split
    · rename_i hGm
      exact absurd (by rw [hGm]; rfl) hOut
    · rfl
  · change a.onGmMsg2 env source body = _
    simp only [onGmMsg2, takeGm_eq hPeer, ok_bind]
    split
    · rename_i hGm
      exact absurd (by rw [hGm]; rfl) hOut
    · rfl
  · change a.onGmMsg3 source body = _
    simp only [onGmMsg3, takeGm_eq hPeer, ok_bind]
    split
    · rename_i hGm
      exact absurd (by rw [hGm]; rfl) hOut
    · rfl

/-- **Frames out of turn.** A control frame that the channel does not wait for (`hOut`) comes from a
known peer (`hPeer`), with GM-PQ on. It leaves the channel state as it was exactly if there was
none, since the handler takes the state out before it looks at it. -/
theorem onGmFrame_keeps_gm_iff {kind : UInt8} (body : Bytes) (hKind : kind ∈ controlKinds)
    (hOn : a.gmpq = true) (hId : a.gmId.isSome) (hPeer : a.peers.lookup source = some p)
    (hOut : ¬ Awaits kind p.gm) :
    (∃ a' p', a.onGmFrame env source kind body = ok a' ∧ a'.peers.lookup source = some p' ∧
      p'.gm = p.gm) ↔ p.gm = none := by
  have hRun := onGmFrame_out_of_turn env body hKind hOn hId hPeer hOut
  constructor
  · rintro ⟨a', p', hFrame, hPeer', hSame⟩
    -- the frame has one outcome, and there the state is gone
    cases hRun.symm.trans hFrame
    rw [lookup_setPeer_self, Option.some_inj] at hPeer'
    rw [← hSame, ← hPeer']
  · intro hNone
    exact ⟨_, _, hRun, lookup_setPeer_self, hNone.symm⟩

/-- A COOKIE frame from a peer without a handshake changes nothing. -/
theorem onGmFrame_keeps_gm_idle :
    ∃ a' p', ((plainNode 1).setPeer plainId (plainPeer none none)).onGmFrame plainEnv plainId
      Mesh.gmCookie [] = ok a' ∧ a'.peers.lookup plainId = some p' ∧ p'.gm = none :=
  (onGmFrame_keeps_gm_iff (p := plainPeer none none) [] (by decide) rfl rfl
    lookup_setPeer_self (by rintro ⟨⟩)).mpr rfl

/-- A COOKIE frame destroys a ready session. -/
theorem not_onGmFrame_keeps_gm :
    ∃ a a' : Actor plainAlgorithms, ∃ p p' : Peer plainAlgorithms,
      a.gmpq = true ∧ a.gmId.isSome ∧ a.peers.lookup plainId = some p ∧
      p.gm = some (.ready plainSession) ∧ ¬ Awaits Mesh.gmCookie p.gm ∧
      a.onGmFrame plainEnv plainId Mesh.gmCookie [] = ok a' ∧
      a'.peers.lookup plainId = some p' ∧ p'.gm = none := by
  have hOut : ¬ Awaits Mesh.gmCookie (plainPeer none (some (.ready plainSession))).gm := by
    rintro ⟨⟩
  exact ⟨(plainNode 1).setPeer plainId (plainPeer none (some (.ready plainSession))), _, _, _, rfl,
    rfl, lookup_setPeer_self, rfl, hOut,
    onGmFrame_out_of_turn _ [] (by decide) rfl rfl lookup_setPeer_self hOut,
    lookup_setPeer_self, rfl⟩

end Actor

end DirectWire.Mesh
