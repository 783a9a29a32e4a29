import DirectWire.Lib.Reader
import DirectWire.Mesh.RelayServer

/-!
# Mesh — the frames of the relay

`proto.rs`. Byte strings and texts have their length in front as a `u32`, lists of candidates as a
`u8`; both lengths are cast. Of an address its family, port and IP are written (`Frame.bare`).

* `Cursor.exact_frame`, `decode_encode` — decoding gets a frame from its bytes, if the lengths fit.
-/

namespace DirectWire.Mesh

open Lib Outcome List

/-- `io::Error`, by its kind. -/
inductive IoError where
  | invalidData (msg : String)
  | unexpectedEof
deriving DecidableEq, Repr

def bad (msg : String) : IoError := .invalidData msg

def tagHello : UInt8 := 1
def tagHelloAck : UInt8 := 2
def tagPunchReq : UInt8 := 3
def tagExchange : UInt8 := 4
def tagRelayData : UInt8 := 5
def tagStatsQuery : UInt8 := 6
def tagStatsReport : UInt8 := 7
def tagError : UInt8 := 255

/-! ## Decoding -/

abbrev Cursor (α : Type) := Reader IoError α

namespace Cursor

def truncated : IoError := bad "frame truncated"

def take (n : Nat) : Cursor Bytes := Reader.take truncated n

def u8 : Cursor UInt8 := do
  let b ← take 1
  Reader.lift (index b 0)

def u16 : Cursor UInt16 := do
  let n ← Reader.word truncated 2
  pure (.ofNat n)

def u32 : Cursor UInt32 := do
  let n ← Reader.word truncated 4
  pure (.ofNat n)

protected def id : Cursor NodeId := do
  let b ← take 32
  Reader.lift (Fixed.ofBytes 32 b)

def bytes : Cursor Bytes := do
  let n ← u32
  take n.toNat

def string : Cursor String := do
  let b ← bytes
  Reader.lift (okOr (fromUtf8 b) (bad "invalid UTF-8"))

def addr : Cursor SocketAddr := do
  let ver ← u8
  let port ← u16
  if ver = 4 then do
    let ip ← Reader.word truncated 4
    pure (.v4 (.ofNat ip) port)
  else if ver = 6 then do
    let ip ← Reader.word truncated 16
    pure (.v6 (.ofNat 128 ip) port 0 0)
  else Reader.fail (bad "unknown address family")

def cand : Cursor (SocketAddr × UInt8) := do
  let kind ← u8
  let a ← addr
  pure (a, kind)

def cands : Cursor Candidates := do
  let n ← u8
  Reader.repeatN cand n.toNat

def frame : Cursor Frame := do
  let tag ← u8
  if tag = tagHello then do
    let nodeId ← Cursor.id
    let cands ← cands
    pure (.hello nodeId cands)
  else if tag = tagHelloAck then do
    let observed ← addr
    pure (.helloAck observed)
  else if tag = tagPunchReq then do
    let target ← Cursor.id
    pure (.punchRequest target)
  else if tag = tagExchange then do
    let peer ← Cursor.id
    let cands ← cands
    pure (.exchange peer cands)
  else if tag = tagRelayData then do
    let dest ← Cursor.id
    let source ← Cursor.id
    let payload ← bytes
    pure (.relayData dest source payload)
  else if tag = tagStatsQuery then pure .statsQuery
  else if tag = tagStatsReport then do
    let text ← string
    pure (.statsReport text)
  else if tag = tagError then do
    let msg ← string
    pure (.error msg)
  else Reader.fail (bad "unknown frame tag")

end Cursor

def decode (buf : Bytes) : Outcome IoError Frame := do
  let (f, _) ← Cursor.frame buf
  ok f

/-! ## Encoding -/

/-- The length is `b.len() as u32`. -/
def putBytes (b : Bytes) : Bytes := beBytes 4 (b.length % 2 ^ 32) ++ b

def putAddr : SocketAddr → Bytes
  | .v4 ip port => 4 :: (beBytes 2 port.toNat ++ beBytes 4 ip.toNat)
  | .v6 ip port _ _ => 6 :: (beBytes 2 port.toNat ++ beBytes 16 ip.toNat)

def putCand (c : SocketAddr × UInt8) : Bytes := c.2 :: putAddr c.1

/-- The length is `cands.len() as u8`. -/
def putCands (cands : Candidates) : Bytes := UInt8.ofNat cands.length :: cands.flatMap putCand

def encode : Frame → Bytes
  | .hello nodeId cands => tagHello :: (nodeId.val ++ putCands cands)
  | .helloAck observed => tagHelloAck :: putAddr observed
  | .punchRequest target => tagPunchReq :: target.val
  | .exchange peer cands => tagExchange :: (peer.val ++ putCands cands)
  | .relayData dest source payload =>
    tagRelayData :: (dest.val ++ (source.val ++ putBytes payload))
  | .statsQuery => [tagStatsQuery]
  | .statsReport text => tagStatsReport :: putBytes (utf8 text)
  | .error msg => tagError :: putBytes (utf8 msg)

/-! ## What is written of a frame -/

def bareAddr : SocketAddr → SocketAddr
  | .v4 ip port => .v4 ip port
  | .v6 ip port _ _ => .v6 ip port 0 0

def bareCand (c : SocketAddr × UInt8) : SocketAddr × UInt8 := (bareAddr c.1, c.2)

namespace Frame

def bare : Frame → Frame
  | .hello nodeId cands => .hello nodeId (cands.map bareCand)
  | .helloAck observed => .helloAck (bareAddr observed)
  | .exchange peer cands => .exchange peer (cands.map bareCand)
  | f => f

def cands : Frame → Candidates
  | .hello _ cands => cands
  | .exchange _ cands => cands
  | _ => []

def content : Frame → Bytes
  | .relayData _ _ payload => payload
  | .statsReport text => utf8 text
  | .error msg => utf8 msg
  | _ => []

structure Fits (f : Frame) : Prop where
  cands : f.cands.length < 2 ^ 8
  content : f.content.length < 2 ^ 32

end Frame

/-! ## Reading back what was written -/

namespace Cursor

open Reader

theorem exact_u8 (b : UInt8) : Exact truncated u8 [b] b := by
  have hTake := Exact.take truncated [b]
  have hBind := hTake.bind (f := fun b => Reader.lift (index b 0)) (Exact.pure b)
  rwa [append_nil] at hBind

theorem exact_cons {α : Type} {f : UInt8 → Cursor α} {b xs a} (h : Exact truncated (f b) xs a) :
    Exact truncated (u8 >>= f) (b :: xs) a :=
  (exact_u8 b).bind h

theorem exact_u16 (n : UInt16) : Exact truncated u16 (beBytes 2 n.toNat) n := by
  have hWord := (Exact.word truncated (w := 2) (n := n.toNat) n.toNat_lt).map UInt16.ofNat
  rwa [UInt16.ofNat_toNat] at hWord

theorem exact_id (id : NodeId) : Exact truncated Cursor.id id.val id := by
  have hTake : Exact truncated (take 32) id.val id.val := by
    have hTake := Exact.take truncated id.val
    rwa [id.property] at hTake
  have hFixed : Reader.lift (Fixed.ofBytes 32 id.val) = (pure id : Cursor NodeId) := by
    rw [Fixed.ofBytes, dif_pos id.property]
    rfl
  have hBind := hTake.bind (f := fun b => Reader.lift (Fixed.ofBytes 32 b)) (a := id.val)
    (hFixed ▸ Exact.pure id)
  rwa [append_nil] at hBind

theorem exact_bytes {b} (h : b.length < 2 ^ 32) : Exact truncated bytes (putBytes b) b := by
  rw [putBytes, Nat.mod_eq_of_lt h]
  refine ((Exact.word truncated h).map UInt32.ofNat).bind ?_
  rw [UInt32.toNat_ofNat', Nat.mod_eq_of_lt h]
  exact Exact.take truncated b

theorem exact_string {s} (h : (utf8 s).length < 2 ^ 32) :
    Exact truncated string (putBytes (utf8 s)) s := by
  have hBind := (exact_bytes h).bind
    (f := fun b => Reader.lift (okOr (fromUtf8 b) (bad "invalid UTF-8"))) (b := s)
    (by rw [fromUtf8_utf8, okOr_some]; exact Exact.pure s)
  rwa [append_nil] at hBind

theorem exact_addr (a : SocketAddr) : Exact truncated addr (putAddr a) (bareAddr a) := by
  cases a with
  | v4 ip port =>
    refine exact_cons ((exact_u16 port).bind ?_)
    have hWord := (Exact.word truncated (w := 4) (n := ip.toNat) ip.toNat_lt).map
      fun ip => SocketAddr.v4 (.ofNat ip) port
    rwa [UInt32.ofNat_toNat] at hWord
  | v6 ip port =>
    refine exact_cons ((exact_u16 port).bind ?_)
    have hWord := (Exact.word truncated (w := 16) (n := ip.toNat) ip.isLt).map
      fun ip => SocketAddr.v6 (.ofNat 128 ip) port 0 0
    rwa [BitVec.ofNat_toNat, BitVec.setWidth_eq] at hWord

theorem exact_cands {cs} (h : cs.length < 2 ^ 8) :
    Exact truncated cands (putCands cs) (cs.map bareCand) := by
  refine exact_cons ?_
  rw [UInt8.toNat_ofNat', Nat.mod_eq_of_lt h]
  exact Exact.repeatN (fun c => exact_cons ((exact_addr c.1).map (·, c.2))) cs

theorem exact_frame {f} (h : f.Fits) : Exact truncated frame (encode f) f.bare := by
  obtain ⟨hCands, hContent⟩ := h
  cases f with
  | hello nodeId =>
    exact exact_cons ((exact_id nodeId).bind ((exact_cands hCands).map (Frame.hello nodeId)))
  | helloAck observed => exact exact_cons ((exact_addr observed).map Frame.helloAck)
  | punchRequest target => exact exact_cons ((exact_id target).map Frame.punchRequest)
  | exchange peer =>
    exact exact_cons ((exact_id peer).bind ((exact_cands hCands).map (Frame.exchange peer)))
  | relayData dest source =>
    exact exact_cons ((exact_id dest).bind
      ((exact_id source).bind ((exact_bytes hContent).map (Frame.relayData dest source))))
  | statsQuery => exact exact_cons (Exact.pure Frame.statsQuery)
  | statsReport => exact exact_cons ((exact_string hContent).map Frame.statsReport)
  | error => exact exact_cons ((exact_string hContent).map Frame.error)

end Cursor

section Decode

variable {f : Frame}

theorem decode_append (h : f.Fits) (rest : Bytes) : decode (encode f ++ rest) = ok f.bare := by
  rw [decode, (Cursor.exact_frame h).reads, ok_bind]

theorem decode_encode (h : f.Fits) : decode (encode f) = ok f.bare := by
  have hAppend := decode_append h []
  rwa [append_nil] at hAppend

theorem decode_cut (h : f.Fits) {part left} (hParts : encode f = part ++ left) (hLeft : left ≠ []) :
    decode part = err Cursor.truncated := by
  rw [decode, (Cursor.exact_frame h).cut part left hParts hLeft, err_bind]

/-! ## Lengths that do not fit -/

theorem putCands_take (cs : Candidates) :
    putCands cs = putCands (cs.take (cs.length % 2 ^ 8)) ++
      (cs.drop (cs.length % 2 ^ 8)).flatMap putCand := by
  have hLength : (cs.take (cs.length % 2 ^ 8)).length = cs.length % 2 ^ 8 := by
    rw [length_take]
    exact Nat.min_eq_left (Nat.mod_le _ _)
  have hByte : UInt8.ofNat (cs.length % 2 ^ 8) = UInt8.ofNat cs.length := by
    apply UInt8.toNat_inj.mp
    rw [UInt8.toNat_ofNat', UInt8.toNat_ofNat', Nat.mod_mod]
  rw [putCands, putCands, hLength, hByte, cons_append, ← flatMap_append, take_append_drop]

theorem putBytes_take (b : Bytes) :
    putBytes b = putBytes (b.take (b.length % 2 ^ 32)) ++ b.drop (b.length % 2 ^ 32) := by
  have hLength : (b.take (b.length % 2 ^ 32)).length = b.length % 2 ^ 32 := by
    rw [length_take]
    exact Nat.min_eq_left (Nat.mod_le _ _)
  rw [putBytes, putBytes, hLength, Nat.mod_mod, append_assoc, take_append_drop]

/-- The frame with as many candidates, or bytes of the payload, as the written length says. -/
def Frame.shortened : Frame → Frame
  | .hello nodeId cands => .hello nodeId (cands.take (cands.length % 2 ^ 8))
  | .exchange peer cands => .exchange peer (cands.take (cands.length % 2 ^ 8))
  | .relayData dest source payload =>
    .relayData dest source (payload.take (payload.length % 2 ^ 32))
  | f => f

theorem encode_shortened (f : Frame) : ∃ rest, encode f = encode f.shortened ++ rest := by
  cases f with
  | hello nodeId cs | exchange peer cs =>
    refine ⟨(cs.drop (cs.length % 2 ^ 8)).flatMap putCand, ?_⟩
    rw [Frame.shortened, encode, encode, cons_append, append_assoc, ← putCands_take]
  | relayData dest source payload =>
    refine ⟨payload.drop (payload.length % 2 ^ 32), ?_⟩
    rw [Frame.shortened, encode, encode, cons_append, append_assoc, append_assoc, ← putBytes_take]
  | helloAck | punchRequest | statsQuery | statsReport | error =>
    exact ⟨[], (append_nil _).symm⟩

theorem length_take_mod_lt {α : Type} (l : List α) {k} (h : 0 < k) :
    (l.take (l.length % k)).length < k := by
  rw [length_take]
  exact (Nat.min_le_left _ _).trans_lt (Nat.mod_lt _ h)

theorem length_lt_of_take {α β : Type} {l : List α} {g : α → β} {k : Nat} (h : 0 < k)
    (hSame : (l.take (l.length % k)).map g = l.map g) : l.length < k := by
  have hLength := congrArg length hSame
  rw [length_map, length_map] at hLength
  exact hLength ▸ length_take_mod_lt l h

theorem Frame.fits_shortened (h : f.content.length < 2 ^ 32) : f.shortened.Fits := by
  cases f with
  | hello nodeId cs | exchange peer cs =>
    exact ⟨length_take_mod_lt cs (by decide), Nat.two_pow_pos _⟩
  | relayData dest source payload =>
    exact ⟨Nat.two_pow_pos _, length_take_mod_lt payload (by decide)⟩
  | helloAck | punchRequest | statsQuery | statsReport | error =>
    exact ⟨Nat.two_pow_pos _, h⟩

theorem decode_encode_shortened (h : f.shortened.Fits) :
    decode (encode f) = ok f.shortened.bare := by
  obtain ⟨rest, hRest⟩ := encode_shortened f
  rw [hRest, decode_append h]

theorem cands_lt_of_decode (hContent : f.content.length < 2 ^ 32)
    (h : decode (encode f) = ok f.bare) : f.cands.length < 2 ^ 8 := by
  rw [decode_encode_shortened (Frame.fits_shortened hContent), ok.injEq] at h
  cases f with
  | hello => exact length_lt_of_take (g := bareCand) (by decide) (Frame.hello.inj h).2
  | exchange =>
    exact length_lt_of_take (g := bareCand) (by decide) (Frame.exchange.inj h).2
  | helloAck | punchRequest | relayData | statsQuery | statsReport | error =>
    exact Nat.two_pow_pos _

/-- **Decoding undoes encoding.** The content of the frame is below 4 GiB (`hContent`). Then
decoding what was encoded gives the frame, up to what is not written of its addresses (`bare`),
exactly if it has fewer than 256 candidates. -/
theorem decode_encode_iff (hContent : f.content.length < 2 ^ 32) :
    decode (encode f) = ok f.bare ↔ f.cands.length < 2 ^ 8 :=
  ⟨cands_lt_of_decode hContent, fun hCands => decode_encode ⟨hCands, hContent⟩⟩

def localCand : SocketAddr × UInt8 := (.v4 0x7f000001 1234, 0)

theorem decode_encode_one :
    decode (encode (.hello loneNode [localCand])) = ok (.hello loneNode [localCand]) :=
  (decode_encode_iff (f := .hello loneNode [localCand]) (Nat.two_pow_pos _)).mpr (by decide)

/-- 256 candidates are decoded to none. -/
theorem decode_encode_many :
    decode (encode (.hello loneNode (replicate 256 localCand))) = ok (.hello loneNode []) := by
  have hNone : (replicate 256 localCand).take ((replicate 256 localCand).length % 2 ^ 8) = [] := by
    rw [length_replicate]
    rfl
  rw [decode_encode_shortened (Frame.fits_shortened (Nat.two_pow_pos _)), Frame.shortened, hNone]
  rfl

/-! ## Frames that are decoded to themselves -/

theorem string_putBytes (b rest : Bytes) :
    Cursor.string (putBytes b ++ rest) =
      okOr (fromUtf8 (b.take (b.length % 2 ^ 32))) (bad "invalid UTF-8") >>= fun s =>
        ok (s, b.drop (b.length % 2 ^ 32) ++ rest) := by
  have hBytes := (Cursor.exact_bytes (length_take_mod_lt b (Nat.two_pow_pos 32))).reads
    (b.drop (b.length % 2 ^ 32) ++ rest)
  rw [← append_assoc, ← putBytes_take] at hBytes
  rw [Cursor.string, Reader.bind_apply, hBytes, ok_bind]
  rfl

theorem text_lt_of_string {text rest} (h : Cursor.string (putBytes (utf8 text)) = ok (text, rest)) :
    (utf8 text).length < 2 ^ 32 := by
  have hString := string_putBytes (utf8 text) []
  rw [append_nil, h] at hString
  obtain ⟨s, hText, hSame⟩ := bind_eq_ok.mp hString.symm
  cases hSame
  have hBytes := utf8_of_fromUtf8 (okOr_eq_ok.mp hText)
  have hTake : ((utf8 text).take ((utf8 text).length % 2 ^ 32)).length = (utf8 text).length :=
    congrArg length hBytes.symm
  exact hTake ▸ length_take_mod_lt _ (Nat.two_pow_pos _)

theorem string_of_decode {tag : UInt8} {xs : Bytes} {g : String → Frame}
    (hTag : tag = tagStatsReport ∧ g = .statsReport ∨ tag = tagError ∧ g = .error)
    (h : decode (tag :: xs) = ok f) :
    ∃ text rest, Cursor.string xs = ok (text, rest) ∧ g text = f := by
  obtain ⟨⟨f', rest⟩, hFrame, hSame⟩ := bind_eq_ok.mp h
  cases hSame
  have hByte := (Cursor.exact_u8 tag).reads xs
  rw [singleton_append] at hByte
  rw [Cursor.frame, Reader.bind_apply, hByte, ok_bind] at hFrame
  have hText : Cursor.string xs >>= (fun x => ok (g x.1, x.2)) = ok (f, rest) := by
    rcases hTag with ⟨rfl, rfl⟩ | ⟨rfl, rfl⟩ <;> exact hFrame
  obtain ⟨⟨text, rest'⟩, hString, hSame⟩ := bind_eq_ok.mp hText
  cases hSame
  exact ⟨text, rest', hString, rfl⟩

theorem Frame.fits_of_decode (h : decode (encode f) = ok f.bare) : f.Fits := by
  cases f with
  | hello | exchange =>
    exact ⟨cands_lt_of_decode (Nat.two_pow_pos _) h, Nat.two_pow_pos _⟩
  | relayData dest source payload =>
    have hShort : (Frame.relayData dest source payload).shortened.Fits :=
      ⟨Nat.two_pow_pos _, length_take_mod_lt payload (Nat.two_pow_pos _)⟩
    rw [decode_encode_shortened hShort, ok.injEq] at h
    have hPayload := congrArg length (Frame.relayData.inj h).2.2
    exact ⟨Nat.two_pow_pos _, hPayload ▸ hShort.content⟩
  | statsReport text =>
    obtain ⟨text', rest, hString, hSame⟩ := string_of_decode (.inl ⟨rfl, rfl⟩) h
    cases hSame
    exact ⟨Nat.two_pow_pos _, text_lt_of_string hString⟩
  | error msg =>
    obtain ⟨msg', rest, hString, hSame⟩ := string_of_decode (.inr ⟨rfl, rfl⟩) h
    cases hSame
    exact ⟨Nat.two_pow_pos _, text_lt_of_string hString⟩
  | helloAck | punchRequest | statsQuery =>
    exact ⟨Nat.two_pow_pos _, Nat.two_pow_pos _⟩

end Decode

end DirectWire.Mesh
