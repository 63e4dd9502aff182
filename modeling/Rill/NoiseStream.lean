import Rill.Bytes
import Rill.Transition

/-!
# The record stream of a controlbase session

`rill-ts2021/src/controlbase/`: `Session::seal` and `Session::open` of `handshake.rs`, the record
header of `wire.rs`, and the polls of `NoiseStream` in `stream.rs`. The transport answers each call
of a poll: with up to some number of bytes, with `Pending`, or with an error; it is `Pending` when
the list of answers ends. What a buffer still holds stands for the buffer and its position.
-/

namespace Rill
namespace Controlbase

def msgTypeRecord : UInt8 := 4
def headerLen : ℕ := 3
def maxMessageSize : ℕ := 4096
def maxCiphertextSize : ℕ := maxMessageSize - headerLen
def aeadTagLen : ℕ := 16
def maxPlaintextSize : ℕ := maxCiphertextSize - aeadTagLen
def invalidNonce : UInt64 := 0xffffffffffffffff

/-- The errors of a session that is established. -/
inductive ControlbaseError where
  | malformedFrame
  | desync
deriving DecidableEq

def recordNonce (counter : UInt64) : Bytes := List.replicate 4 0 ++ u64be counter

def encodeRecordHeader (ciphertextLen : ℕ) : Bytes := msgTypeRecord :: beBytes 2 ciphertextLen

def parseHeader : Bytes → Except ControlbaseError (UInt8 × ℕ)
  | msgType :: hi :: lo :: _ => .ok (msgType, readBE [hi, lo])
  | _ => .error .malformedFrame

def parseRecordHeader (header : Bytes) : Except ControlbaseError ℕ :=
  match parseHeader header with
  | .error e => .error e
  | .ok (msgType, length) =>
    if msgType ≠ msgTypeRecord ∨ maxCiphertextSize < length then .error .malformedFrame
    else .ok length

/-- The pieces of `n` bytes, the last one shorter; `fuel` pieces at most. -/
def chunksUpTo (n : ℕ) : ℕ → Bytes → List Bytes
  | 0, _ => []
  | fuel + 1, b => if b = [] then [] else b.take n :: chunksUpTo n fuel (b.drop n)

def chunks (n : ℕ) (b : Bytes) : List Bytes := chunksUpTo n b.length b

structure Session where
  txNonce : UInt64 := 0
  rxNonce : UInt64 := 0
  rxFailed : Bool := false
deriving DecidableEq

namespace Session

def sealChunks (encrypt : Bytes → Bytes → Option Bytes) :
    Session → List Bytes → Except ControlbaseError Bytes × Session
  | s, [] => (.ok [], s)
  | s, chunk :: rest =>
    if s.txNonce = invalidNonce then (.error .desync, s)
    else
      match encrypt (recordNonce s.txNonce) chunk with
      | none => (.error .malformedFrame, s)
      | some ct =>
        let (out, s) := sealChunks encrypt { s with txNonce := s.txNonce + 1 } rest
        (out.map (encodeRecordHeader ct.length ++ ct ++ ·), s)

/-- `Session::seal` with the cipher of the sending direction. -/
def sealPlaintext (encrypt : Bytes → Bytes → Option Bytes) (s : Session) (plaintext : Bytes) :
    Except ControlbaseError Bytes × Session :=
  sealChunks encrypt s (chunks maxPlaintextSize plaintext)

/-- `Session::open` with the cipher of the receiving direction. -/
def openRecord (decrypt : Bytes → Bytes → Option Bytes) (s : Session) (frame : Bytes) :
    Except ControlbaseError Bytes × Session :=
  if s.rxFailed then (.error .desync, s)
  else
    match parseRecordHeader frame with
    | .error e => (.error e, { s with rxFailed := true })
    | .ok header =>
      if frame.length ≠ headerLen + header ∨ header < aeadTagLen then
        (.error .malformedFrame, { s with rxFailed := true })
      else if s.rxNonce = invalidNonce then (.error .desync, { s with rxFailed := true })
      else
        match decrypt (recordNonce s.rxNonce) (frame.drop headerLen) with
        | some plaintext => (.ok plaintext, { s with rxNonce := s.rxNonce + 1 })
        | none => (.error .desync, { s with rxFailed := true })

end Session

inductive IoError where
  | invalidData (e : ControlbaseError)
  | truncatedHeader
  | truncatedBody
  | writeZero
  | transport
deriving DecidableEq

inductive Poll (α : Type) where
  | pending
  | ready (a : α)
deriving DecidableEq

/-- What the transport answers to a read: up to `k + 1` bytes, none at its end. -/
inductive ReadAnswer where
  | upTo (k : ℕ)
  | pending
  | error

/-- What the transport answers to a write: up to `k + 1` bytes are taken. -/
inductive WriteAnswer where
  | upTo (k : ℕ)
  | zero
  | pending
  | error

/-- `RxStage` with the part of `hdr` or `frame` that is filled. -/
inductive RxStage where
  | header (hdr : Bytes)
  | body (frame : Bytes) (len : ℕ)
deriving DecidableEq

/-- `incoming` has arrived and is not read, `outgoing` is what was written in all. -/
structure NoiseStream where
  session : Session := {}
  stage : RxStage := .header []
  plain : Bytes := []
  eof : Bool := false
  pending : Bytes := []
  incoming : Bytes := []
  closed : Bool := false
  outgoing : Bytes := []
deriving DecidableEq

/-- How the loop of `poll_fill_rx` goes on: it has to read into `space` bytes, or it returns. -/
inductive RxNext where
  | wants (space : ℕ) (s : NoiseStream)
  | done (r : Except IoError Unit) (s : NoiseStream)

namespace NoiseStream

section Read
variable (decrypt : Bytes → Bytes → Option Bytes)

/-- The body stage. A frame that does not open is gone, its stage stays. -/
def advanceBody (s : NoiseStream) (frame : Bytes) (len : ℕ) : RxNext :=
  if frame.length < len then .wants (len - frame.length) { s with stage := .body frame len }
  else
    match s.session.openRecord decrypt frame with
    | (.error e, session) => .done (.error (.invalidData e)) { s with session, stage := .body [] 0 }
    | (.ok plain, session) =>
      if plain = [] then .wants headerLen { s with session, plain, stage := .header [] }
      else .done (.ok ()) { s with session, plain, stage := .header [] }

def advance (s : NoiseStream) : RxNext :=
  match s.stage with
  | .header hdr =>
    if hdr.length < headerLen then .wants (headerLen - hdr.length) s
    else
      match parseRecordHeader hdr with
      | .error e => .done (.error (.invalidData e)) s
      | .ok bodyLen => s.advanceBody decrypt hdr (headerLen + bodyLen)
  | .body frame len => s.advanceBody decrypt frame len

def fill (s : NoiseStream) (n : ℕ) : NoiseStream :=
  { s with
    stage := match s.stage with
      | .header hdr => .header (hdr ++ s.incoming.take n)
      | .body frame len => .body (frame ++ s.incoming.take n) len
    incoming := s.incoming.drop n }

def readEnd (s : NoiseStream) : Except IoError Unit × NoiseStream :=
  match s.stage with
  | .header [] => (.ok (), { s with eof := true })
  | .header _ => (.error .truncatedHeader, s)
  | .body _ _ => (.error .truncatedBody, s)

def pollFillRx : NoiseStream → List ReadAnswer → Poll (Except IoError Unit) × NoiseStream
  | s, [] =>
    match s.advance decrypt with
    | .done r s => (.ready r, s)
    | .wants _ s => (.pending, s)
  | s, answer :: answers =>
    match s.advance decrypt with
    | .done r s => (.ready r, s)
    | .wants space s =>
      match answer with
      | .pending => (.pending, s)
      | .error => (.ready (.error .transport), s)
      | .upTo k =>
        if s.incoming = [] then
          if s.closed then (.ready s.readEnd.1, s.readEnd.2) else (.pending, s)
        else pollFillRx (s.fill (min (k + 1) space)) answers

/-- The end of `poll_read`: what fits into the buffer is handed out. -/
def handOut (s : NoiseStream) (room : ℕ) : Poll (Except IoError Bytes) × NoiseStream :=
  (.ready (.ok (s.plain.take room)), { s with plain := s.plain.drop room })

def pollRead (s : NoiseStream) (room : ℕ) (answers : List ReadAnswer) :
    Poll (Except IoError Bytes) × NoiseStream :=
  if s.plain = [] ∧ s.eof = false then
    match s.pollFillRx decrypt answers with
    | (.pending, s) => (.pending, s)
    | (.ready (.error e), s) => (.ready (.error e), s)
    | (.ready (.ok ()), s) => s.handOut room
  else s.handOut room

end Read

def pollFlush : NoiseStream → List WriteAnswer → Poll (Except IoError Unit) × NoiseStream
  | s, [] => if s.pending = [] then (.ready (.ok ()), s) else (.pending, s)
  | s, answer :: answers =>
    if s.pending = [] then (.ready (.ok ()), s)
    else
      match answer with
      | .pending => (.pending, s)
      | .error => (.ready (.error .transport), s)
      | .zero => (.ready (.error .writeZero), s)
      | .upTo k => pollFlush { s with
          outgoing := s.outgoing ++ s.pending.take (k + 1)
          pending := s.pending.drop (k + 1) } answers

def pollWrite (encrypt : Bytes → Bytes → Option Bytes) (s : NoiseStream) (buf : Bytes)
    (answers : List WriteAnswer) : Poll (Except IoError ℕ) × NoiseStream :=
  if buf = [] then (.ready (.ok 0), s)
  else
    match s.session.sealPlaintext encrypt buf with
    | (.error e, session) => (.ready (.error (.invalidData e)), { s with session })
    | (.ok sealedBytes, session) =>
      match pollFlush { s with session, pending := s.pending ++ sealedBytes } answers with
      | (.ready (.error e), s) => (.ready (.error e), s)
      | (.ready (.ok ()), s) => (.ready (.ok buf.length), s)
      | (.pending, s) => (.ready (.ok buf.length), s)

end NoiseStream

section Chunks
variable {n : ℕ}

theorem flatten_chunksUpTo (hn : 0 < n) {fuel : ℕ} {b : Bytes} (hb : b.length ≤ fuel) :
    (chunksUpTo n fuel b).flatten = b := by
  induction fuel generalizing b with
  | zero => exact (List.length_eq_zero_iff.mp (Nat.le_zero.mp hb)).symm
  | succ fuel ih =>
    rw [chunksUpTo]
    split_ifs with hnil
    · exact hnil.symm
    · have hpos : 0 < b.length := List.length_pos_iff.mpr hnil
      rw [List.flatten_cons, ih (by rw [List.length_drop]; omega), List.take_append_drop]

theorem flatten_chunks (hn : 0 < n) (b : Bytes) : (chunks n b).flatten = b :=
  flatten_chunksUpTo hn le_rfl

theorem length_of_mem_chunksUpTo (hn : 0 < n) {fuel : ℕ} {b c : Bytes}
    (hc : c ∈ chunksUpTo n fuel b) : 0 < c.length ∧ c.length ≤ n := by
  induction fuel generalizing b with
  | zero => simp [chunksUpTo] at hc
  | succ fuel ih =>
    rw [chunksUpTo] at hc
    split_ifs at hc with hnil
    · simp at hc
    · rcases List.mem_cons.mp hc with rfl | hc
      · have hpos : 0 < b.length := List.length_pos_iff.mpr hnil
        rw [List.length_take]
        omega
      · exact ih hc

theorem length_of_mem_chunks (hn : 0 < n) {b c : Bytes} (hc : c ∈ chunks n b) :
    0 < c.length ∧ c.length ≤ n :=
  length_of_mem_chunksUpTo hn hc

end Chunks

section Records
variable (encrypt : Bytes → Bytes → Option Bytes)

/-- Encryption as the crate has it: of every plaintext that fits a record, with a tag behind it. -/
def Total : Prop :=
  ∀ nonce msg, msg.length ≤ maxPlaintextSize →
    ∃ ct, encrypt nonce msg = some ct ∧ ct.length = msg.length + aeadTagLen

def record (entry : Bytes × Bytes) : Bytes :=
  match encrypt entry.1 entry.2 with
  | none => []
  | some ct => encodeRecordHeader ct.length ++ ct

def numbered : UInt64 → List Bytes → List (Bytes × Bytes)
  | _, [] => []
  | counter, chunk :: rest => (recordNonce counter, chunk) :: numbered (counter + 1) rest

variable {encrypt}

theorem toNat_lt_of_ne_invalid {n : UInt64} (h : n ≠ invalidNonce) : n.toNat < 2 ^ 64 - 1 := by
  have hlt := n.toNat_lt
  have hne : n.toNat ≠ invalidNonce.toNat := fun heq => h (UInt64.toNat_inj.mp heq)
  have hmax : invalidNonce.toNat = 2 ^ 64 - 1 := rfl
  omega

theorem toNat_succ {n : UInt64} (h : n.toNat < 2 ^ 64 - 1) : (n + 1).toNat = n.toNat + 1 := by
  rw [UInt64.toNat_add]
  exact Nat.mod_eq_of_lt (by change n.toNat + 1 < 2 ^ 64; omega)

theorem length_record (hencrypt : Total encrypt) {entry : Bytes × Bytes}
    (h : entry.2.length ≤ maxPlaintextSize) :
    (record encrypt entry).length = entry.2.length + (headerLen + aeadTagLen) := by
  obtain ⟨ct, hct, hlen⟩ := hencrypt entry.1 entry.2 h
  simp only [record, hct, encodeRecordHeader, List.length_append, List.length_cons, length_beBytes,
    hlen, headerLen]
  omega

/-- `seal` makes the records of the pieces, or it uses up the nonces. -/
theorem sealChunks_eq (hencrypt : Total encrypt) {cs : List Bytes} {s : Session}
    (hcs : ∀ c ∈ cs, c.length ≤ maxPlaintextSize) :
    (s.txNonce.toNat + cs.length ≤ 2 ^ 64 - 1 ∧
      ∃ s', s'.txNonce.toNat = s.txNonce.toNat + cs.length ∧ s'.rxNonce = s.rxNonce ∧
        s'.rxFailed = s.rxFailed ∧
        s.sealChunks encrypt cs = (.ok ((numbered s.txNonce cs).flatMap (record encrypt)), s')) ∨
    (2 ^ 64 - 1 < s.txNonce.toNat + cs.length ∧
      s.sealChunks encrypt cs = (.error .desync, { s with txNonce := invalidNonce })) := by
  induction cs generalizing s with
  | nil =>
    have hlt := s.txNonce.toNat_lt
    exact .inl ⟨by rw [List.length_nil]; omega, s, rfl, rfl, rfl, rfl⟩
  | cons c cs ih =>
    by_cases hmax : s.txNonce = invalidNonce
    · have hnat : s.txNonce.toNat = 2 ^ 64 - 1 := by rw [hmax]; rfl
      refine .inr ⟨by rw [List.length_cons]; omega, ?_⟩
      rw [Session.sealChunks, if_pos hmax, ← hmax]
    · have hnext := toNat_succ (toNat_lt_of_ne_invalid hmax)
      obtain ⟨ct, hct, -⟩ := hencrypt (recordNonce s.txNonce) c (hcs c List.mem_cons_self)
      rw [Session.sealChunks, if_neg hmax, hct, List.length_cons]
      dsimp only
      rcases ih (s := { s with txNonce := s.txNonce + 1 })
        (fun d hd => hcs d (List.mem_cons_of_mem c hd)) with
        ⟨hroom, s', htx, hrx, hfailed, heq⟩ | ⟨hroom, heq⟩
      · refine .inl ⟨by dsimp only at hroom; omega, s', ?_, hrx, hfailed, ?_⟩
        · rw [htx, hnext]
          omega
        · rw [heq, numbered, List.flatMap_cons, record, hct]
          rfl
      · refine .inr ⟨by dsimp only at hroom; omega, ?_⟩
        rw [heq]
        rfl

end Records

end Controlbase

end Rill
