import Rill.NoiseFailure

/-!
# The records a stream writes

Whatever is polled and in whatever parts the transport takes the bytes, what a `NoiseStream` has
written and still holds is a series of whole records under the nonces from zero on.
-/

namespace Rill
namespace Controlbase

theorem numbered_append (counter : UInt64) (cs ds : List Bytes) :
    numbered counter (cs ++ ds) =
      numbered counter cs ++ numbered (counter + UInt64.ofNat cs.length) ds := by
  induction cs generalizing counter with
  | nil => simp [numbered]
  | cons c cs ih =>
    rw [List.cons_append, numbered, ih, numbered, List.cons_append, List.length_cons,
      UInt64.ofNat_add, add_comm (UInt64.ofNat cs.length), ← add_assoc]
    rfl

theorem map_fst_numbered (counter : UInt64) (cs : List Bytes) :
    (numbered counter cs).map Prod.fst =
      (List.range cs.length).map fun i => recordNonce (counter + UInt64.ofNat i) := by
  induction cs using List.reverseRecOn with
  | nil => rfl
  | append_singleton cs c ih =>
    rw [numbered_append, List.map_append, ih, List.length_append, List.length_singleton,
      List.range_succ, List.map_append]
    rfl

theorem nodup_numbered {cs : List Bytes} (h : cs.length < 2 ^ 64) :
    ((numbered 0 cs).map Prod.fst).Nodup := by
  rw [map_fst_numbered]
  refine List.nodup_range.map_on fun i hi j hj heq => ?_
  have hof := u64be_injective (List.append_cancel_left heq)
  rw [zero_add, zero_add] at hof
  rw [← UInt64.toNat_ofNat_of_lt' (lt_trans (List.mem_range.mp hi) h), hof,
    UInt64.toNat_ofNat_of_lt' (lt_trans (List.mem_range.mp hj) h)]

def RxNext.stream : RxNext → NoiseStream
  | .wants _ s => s
  | .done _ s => s

namespace NoiseStream
variable {encrypt decrypt : Bytes → Bytes → Option Bytes} {s : NoiseStream}

/-- What the polls that write look at. -/
def writing (s : NoiseStream) : UInt64 × Bytes × Bytes := (s.session.txNonce, s.pending, s.outgoing)

theorem writing_advance (s : NoiseStream) :
    (s.advance decrypt).stream.writing = s.writing := by
  have hbody : ∀ frame len, (s.advanceBody decrypt frame len).stream.writing = s.writing := by
    intro frame len
    rw [advanceBody]
    split_ifs
    · rfl
    · rcases @openRecord_cases decrypt s.session frame with
        ⟨e, hopen⟩ | ⟨n, p, -, -, -, -, -, hopen⟩
      · rw [hopen]
        rfl
      · rw [hopen]
        dsimp only
        split_ifs <;> rfl
  rw [advance]
  cases s.stage with
  | body frame len => exact hbody frame len
  | header hdr =>
    dsimp only
    split_ifs
    · rfl
    · cases parseRecordHeader hdr with
      | error e => rfl
      | ok n => exact hbody hdr _

theorem writing_pollFillRx (s : NoiseStream) (answers : List ReadAnswer) :
    (s.pollFillRx decrypt answers).2.writing = s.writing := by
  induction answers generalizing s with
  | nil =>
    rw [pollFillRx, ← @writing_advance decrypt s]
    cases s.advance decrypt <;> rfl
  | cons answer answers ih =>
    rw [pollFillRx, ← @writing_advance decrypt s]
    cases s.advance decrypt with
    | done r t => rfl
    | wants space t =>
      cases answer with
      | pending => rfl
      | error => rfl
      | upTo k =>
        dsimp only
        split_ifs
        · rw [readEnd]
          split <;> rfl
        · rfl
        · exact ih (t.fill _)

theorem writing_pollRead (s : NoiseStream) (room : ℕ) (answers : List ReadAnswer) :
    (s.pollRead decrypt room answers).2.writing = s.writing := by
  rw [pollRead]
  split_ifs
  · rw [← @writing_pollFillRx decrypt s answers]
    rcases s.pollFillRx decrypt answers with ⟨_ | _ | ⟨⟩, t⟩ <;> rfl
  · rfl

/-- The bytes that a call turns into records: the buffer of a write for which the nonces suffice,
also of one that the transport then refuses. -/
def sealedBy (encrypt : Bytes → Bytes → Option Bytes) (s : NoiseStream) : Act → Bytes
  | .write buf _ =>
    match (s.session.sealPlaintext encrypt buf).1 with
    | .ok _ => buf
    | .error _ => []
  | _ => []

def sealedIn (encrypt decrypt : Bytes → Bytes → Option Bytes) : NoiseStream → List Act → Bytes
  | _, [] => []
  | s, a :: as =>
    s.sealedBy encrypt a ++ sealedIn encrypt decrypt (s.act encrypt decrypt a) as

/-- The pieces stand on the wire and in the buffer, and the counter is past them. -/
structure Holds (encrypt : Bytes → Bytes → Option Bytes) (pieces : List Bytes) (s : NoiseStream) :
    Prop where
  wire : s.outgoing ++ s.pending = (numbered 0 pieces).flatMap (record encrypt)
  le_counter : pieces.length ≤ s.session.txNonce.toNat
  counter : s.session.txNonce ≠ invalidNonce → pieces.length = s.session.txNonce.toNat

theorem Holds.of_writing {pieces : List Bytes} {t : NoiseStream} (h : Holds encrypt pieces s)
    (heq : t.writing = s.writing) : Holds encrypt pieces t := by
  obtain ⟨htx, hpending, hout⟩ : t.session.txNonce = s.session.txNonce ∧ t.pending = s.pending ∧
    t.outgoing = s.outgoing := by simpa [writing] using heq
  constructor
  · rw [hout, hpending, h.wire]
  · exact htx ▸ h.le_counter
  · exact htx ▸ h.counter

theorem Holds.pollFlush {pieces : List Bytes} (h : Holds encrypt pieces s)
    (answers : List WriteAnswer) : Holds encrypt pieces (s.pollFlush answers).2 := by
  obtain ⟨out, rest, hpending, heq⟩ := s.pollFlush_eq answers
  rw [heq]
  exact ⟨by rw [← h.wire, hpending, List.append_assoc], h.le_counter, h.counter⟩

variable (decrypt)

theorem Holds.act (hencrypt : Total encrypt) {pieces : List Bytes} (h : Holds encrypt pieces s)
    (a : Act) : ∃ more, more.flatten = s.sealedBy encrypt a ∧
      Holds encrypt (pieces ++ more) (s.act encrypt decrypt a) := by
  have hnone : ∀ {t}, Holds encrypt pieces t → ∃ more : List Bytes, more.flatten = [] ∧
      Holds encrypt (pieces ++ more) t := fun ht => ⟨[], rfl, by rwa [List.append_nil]⟩
  cases a with
  | read room answers => exact hnone (h.of_writing (s.writing_pollRead room answers))
  | flush answers => exact hnone (h.pollFlush answers)
  | arrive bytes => exact hnone (h.of_writing rfl)
  | close => exact hnone (h.of_writing rfl)
  | write buf answers =>
    rw [sealedBy, NoiseStream.act]
    by_cases hbuf : buf = []
    · subst hbuf
      exact hnone h
    rcases pollWrite_cases hencrypt hbuf s answers with
      ⟨-, hdesync, heq⟩ | ⟨session, out, hout, htx, -, -, heq, -⟩
    · rw [hdesync, heq]
      refine hnone ⟨h.wire, ?_, fun hmax => absurd rfl hmax⟩
      have hnat : invalidNonce.toNat = 2 ^ 64 - 1 := rfl
      have hlt := s.session.txNonce.toNat_lt
      have hle := h.le_counter
      dsimp only
      omega
    · rw [hout, heq]
      have hflat : (chunks maxPlaintextSize buf).flatten = buf := flatten_chunks (by decide) buf
      have hpos : 0 < (chunks maxPlaintextSize buf).length :=
        List.length_pos_iff.mpr fun hnil => hbuf (by rw [← hflat, hnil]; rfl)
      have hlen : pieces.length = s.session.txNonce.toNat := by
        refine h.counter fun hmax => ?_
        have hnat : s.session.txNonce.toNat = 2 ^ 64 - 1 := by rw [hmax]; rfl
        have hlt := session.txNonce.toNat_lt
        omega
      have htotal : (pieces ++ chunks maxPlaintextSize buf).length = session.txNonce.toNat := by
        rw [List.length_append, hlen, htx]
      refine ⟨chunks maxPlaintextSize buf, hflat, .pollFlush ⟨?_, htotal.le, fun _ => htotal⟩ _⟩
      rw [numbered_append, List.flatMap_append, ← h.wire, hlen, UInt64.ofNat_toNat, zero_add,
        List.append_assoc]

theorem Holds.foldl (hencrypt : Total encrypt) {pieces : List Bytes} (h : Holds encrypt pieces s)
    (as : List Act) : ∃ more, more.flatten = sealedIn encrypt decrypt s as ∧
      Holds encrypt (pieces ++ more) (as.foldl (NoiseStream.act encrypt decrypt) s) := by
  induction as generalizing s pieces with
  | nil => exact ⟨[], rfl, by rwa [List.append_nil]⟩
  | cons a as ih =>
    obtain ⟨first, hfirst, hstep⟩ := h.act decrypt hencrypt a
    obtain ⟨rest, hrest, hend⟩ := ih hstep
    refine ⟨first ++ rest, ?_, by rwa [← List.append_assoc]⟩
    rw [List.flatten_append, hfirst, hrest, sealedIn]

/-- What a new stream has written and still holds after any calls is a series of records of the
bytes that were sealed, in their order, and no two of the records have the same nonce. -/
theorem records_in_order (hencrypt : Total encrypt) (as : List Act) :
    ∃ pieces : List Bytes, pieces.flatten = sealedIn encrypt decrypt {} as ∧
      (as.foldl (NoiseStream.act encrypt decrypt) {}).outgoing ++
        (as.foldl (NoiseStream.act encrypt decrypt) {}).pending =
          (numbered 0 pieces).flatMap (record encrypt) ∧
      ((numbered 0 pieces).map Prod.fst).Nodup := by
  have hnew : Holds encrypt [] {} := ⟨rfl, le_rfl, fun _ => rfl⟩
  obtain ⟨pieces, hflat, hend⟩ := hnew.foldl decrypt hencrypt as
  exact ⟨pieces, hflat, hend.wire, nodup_numbered (hend.le_counter.trans_lt (UInt64.toNat_lt _))⟩

theorem records_in_order_lab :
    ∃ pieces : List Bytes, pieces.flatten = [1, 2, 3] ∧
      [4, 0, 18, 1, 2] ++ List.replicate 16 0 ++ ([4, 0, 17, 3] ++ List.replicate 16 0) =
        (numbered 0 pieces).flatMap (record labEncrypt) ∧
      ((numbered 0 pieces).map Prod.fst).Nodup := by
  obtain ⟨pieces, hflat, hwire, hnodup⟩ := records_in_order labDecrypt labEncrypt_total
    [.write [1, 2] [.upTo 4, .error], .write [3] [.pending]]
  refine ⟨pieces, hflat.trans ?_, Eq.trans ?_ hwire, hnodup⟩
  · decide
  · decide

end NoiseStream

end Controlbase

end Rill
