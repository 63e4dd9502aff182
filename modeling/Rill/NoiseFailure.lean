import Rill.NoiseStream

/-!
# What a stream does after a record it could not read

A record that does not parse or decrypt leaves the reading side of a `NoiseStream` in a stage where
every later read fails at once. The writing side does not look at that: it goes on sealing and
writing until its nonces are used up or the transport refuses.
-/

namespace Rill
namespace Controlbase
namespace NoiseStream

/-- A call of the owner of the stream, or an event of the transport. -/
inductive Act where
  | read (room : ℕ) (answers : List ReadAnswer)
  | write (buf : Bytes) (answers : List WriteAnswer)
  | flush (answers : List WriteAnswer)
  | arrive (bytes : Bytes)
  | close

section Polls
variable (encrypt decrypt : Bytes → Bytes → Option Bytes)

def act (s : NoiseStream) : Act → NoiseStream
  | .read room answers => (s.pollRead decrypt room answers).2
  | .write buf answers => (s.pollWrite encrypt buf answers).2
  | .flush answers => (s.pollFlush answers).2
  | .arrive bytes => { s with incoming := s.incoming ++ bytes }
  | .close => { s with closed := true }

def step (s : NoiseStream) (a : Act) : Option NoiseStream := some (s.act encrypt decrypt a)

/-- A read, and a write of a buffer that is not empty, returns an error. -/
def Fails (s : NoiseStream) : Act → Prop
  | .read room answers => ∃ e, (s.pollRead decrypt room answers).1 = .ready (.error e)
  | .write buf answers => buf ≠ [] → ∃ e, (s.pollWrite encrypt buf answers).1 = .ready (.error e)
  | _ => True

end Polls

/-- The transport refuses before it has taken `len` bytes. -/
def refuses : ℕ → List WriteAnswer → Bool
  | _, [] => false
  | len, answer :: answers =>
    if len = 0 then false
    else
      match answer with
      | .pending => false
      | .zero | .error => true
      | .upTo k => refuses (len - (k + 1)) answers

/-- The length of the records that a buffer is sealed into. -/
def sealedLen (buf : Bytes) : ℕ :=
  buf.length + (chunks maxPlaintextSize buf).length * (headerLen + aeadTagLen)

/-- What makes a write fail: the nonces do not suffice, or the transport refuses. -/
def WriteFails (s : NoiseStream) : Act → Prop
  | .write buf answers => buf ≠ [] →
      2 ^ 64 - 1 < s.session.txNonce.toNat + (chunks maxPlaintextSize buf).length ∨
        refuses (s.pending.length + sealedLen buf) answers = true
  | _ => True

/-- The reading side is at a header that does not parse, or at a frame that did not open. -/
structure Dead (s : NoiseStream) : Prop where
  plain : s.plain = []
  eof : s.eof = false
  stage : (∃ hdr e, s.stage = .header hdr ∧ headerLen ≤ hdr.length ∧
      parseRecordHeader hdr = .error e) ∨
    s.session.rxFailed = true ∧ s.stage = .body [] 0

variable {encrypt decrypt : Bytes → Bytes → Option Bytes} {s : NoiseStream}

theorem openRecord_cases (t : Session) (frame : Bytes) :
    (∃ e, t.openRecord decrypt frame = (.error e, { t with rxFailed := true })) ∨
    ∃ n p, t.rxFailed = false ∧ parseRecordHeader frame = .ok n ∧ frame.length = headerLen + n ∧
      t.rxNonce ≠ invalidNonce ∧ decrypt (recordNonce t.rxNonce) (frame.drop headerLen) = some p ∧
      t.openRecord decrypt frame = (.ok p, { t with rxNonce := t.rxNonce + 1 }) := by
  rw [Session.openRecord]
  by_cases hfailed : t.rxFailed = true
  · exact .inl ⟨.desync, by rw [if_pos hfailed, ← hfailed]⟩
  rw [if_neg hfailed]
  cases hparse : parseRecordHeader frame with
  | error e => exact .inl ⟨e, rfl⟩
  | ok n =>
    dsimp only
    by_cases hlen : frame.length ≠ headerLen + n ∨ n < aeadTagLen
    · exact .inl ⟨_, if_pos hlen⟩
    rw [if_neg hlen]
    by_cases hmax : t.rxNonce = invalidNonce
    · exact .inl ⟨_, if_pos hmax⟩
    rw [if_neg hmax]
    cases hdec : decrypt (recordNonce t.rxNonce) (frame.drop headerLen) with
    | none => exact .inl ⟨_, rfl⟩
    | some p =>
      exact .inr ⟨n, p, by simpa using hfailed, rfl, by omega, hmax, rfl, rfl⟩

/-- What the loop comes to without the transport: what arrived is as it was, and an error leaves
the reading side dead. -/
theorem advance_cases (hplain : s.plain = []) (heof : s.eof = false) :
    (∃ space s', s.advance decrypt = .wants space s' ∧ s'.plain = [] ∧ s'.eof = false) ∨
    (∃ s', s.advance decrypt = .done (.ok ()) s') ∨
    ∃ e s', s.advance decrypt = .done (.error (.invalidData e)) s' ∧ Dead s' := by
  have hbody : ∀ frame len,
      (∃ space s', s.advanceBody decrypt frame len = .wants space s' ∧ s'.plain = [] ∧
        s'.eof = false) ∨
      (∃ s', s.advanceBody decrypt frame len = .done (.ok ()) s') ∨
      ∃ e s', s.advanceBody decrypt frame len = .done (.error (.invalidData e)) s' ∧ Dead s' := by
    intro frame len
    rw [advanceBody]
    split_ifs with hmore
    · exact .inl ⟨_, _, rfl, hplain, heof⟩
    · rcases openRecord_cases s.session frame with ⟨e, hopen⟩ | ⟨n, p, -, -, -, -, -, hopen⟩
      · rw [hopen]
        exact .inr (.inr ⟨e, _, rfl, hplain, heof, .inr ⟨rfl, rfl⟩⟩)
      · rw [hopen]
        dsimp only
        split_ifs with hnil
        · exact .inl ⟨_, _, rfl, hnil, heof⟩
        · exact .inr (.inl ⟨_, rfl⟩)
  rw [advance]
  cases hstage : s.stage with
  | body frame len => exact hbody frame len
  | header hdr =>
    dsimp only
    split_ifs with hmore
    · exact .inl ⟨_, _, rfl, hplain, heof⟩
    · cases hparse : parseRecordHeader hdr with
      | ok n => exact hbody hdr _
      | error e =>
        exact .inr (.inr ⟨e, s, rfl, hplain, heof, .inl ⟨hdr, e, hstage, not_lt.mp hmore, hparse⟩⟩)

theorem advance_of_dead (h : s.Dead) :
    ∃ e, s.advance decrypt = .done (.error (.invalidData e)) s := by
  rcases h.stage with ⟨hdr, e, hstage, hlen, hparse⟩ | ⟨hfailed, hstage⟩
  · exact ⟨e, by rw [advance, hstage]; simp only [hparse, if_neg (not_lt.mpr hlen)]⟩
  · refine ⟨.desync, ?_⟩
    have hopen : s.session.openRecord decrypt [] = (.error .desync, s.session) := by
      rw [Session.openRecord, if_pos hfailed]
    rw [advance, hstage]
    simp only [advanceBody, List.length_nil, lt_irrefl, if_false, hopen, ← hstage]

theorem pollRead_of_dead (h : s.Dead) (room : ℕ) (answers : List ReadAnswer) :
    ∃ e, s.pollRead decrypt room answers = (.ready (.error e), s) := by
  obtain ⟨e, he⟩ := @advance_of_dead decrypt s h
  have hfill : s.pollFillRx decrypt answers = (.ready (.error (.invalidData e)), s) := by
    cases answers with
    | nil => rw [pollFillRx, he]
    | cons a as => rw [pollFillRx, he]
  exact ⟨.invalidData e, by rw [pollRead, if_pos ⟨h.plain, h.eof⟩, hfill]⟩

theorem dead_of_pollFillRx {answers : List ReadAnswer} {e : ControlbaseError} {s' : NoiseStream}
    (hplain : s.plain = []) (heof : s.eof = false)
    (h : s.pollFillRx decrypt answers = (.ready (.error (.invalidData e)), s')) : s'.Dead := by
  induction answers generalizing s with
  | nil =>
    rw [pollFillRx] at h
    rcases @advance_cases decrypt s hplain heof with
      ⟨space, t, hadv, -, -⟩ | ⟨t, hadv⟩ | ⟨e', t, hadv, hdead⟩
    · simp [hadv] at h
    · simp [hadv] at h
    · simp only [hadv, Prod.mk.injEq] at h
      exact h.2 ▸ hdead
  | cons a as ih =>
    rw [pollFillRx] at h
    rcases @advance_cases decrypt s hplain heof with
      ⟨space, t, hadv, hplain, heof⟩ | ⟨t, hadv⟩ | ⟨e', t, hadv, hdead⟩
    · rw [hadv] at h
      cases a with
      | pending => simp at h
      | error => simp at h
      | upTo k =>
        dsimp only at h
        split_ifs at h with hempty hclosed
        · rw [readEnd] at h
          split at h <;> simp at h
        · exact nomatch (Prod.mk.inj h).1
        · exact ih (s := t.fill _) hplain heof h
    · simp [hadv] at h
    · simp only [hadv, Prod.mk.injEq] at h
      exact h.2 ▸ hdead

theorem dead_of_pollRead {room : ℕ} {answers : List ReadAnswer} {e : ControlbaseError}
    {s' : NoiseStream}
    (h : s.pollRead decrypt room answers = (.ready (.error (.invalidData e)), s')) : s'.Dead := by
  rw [pollRead] at h
  split_ifs at h with hfill
  · rcases hp : s.pollFillRx decrypt answers with ⟨_ | _ | ⟨⟩, t⟩
    · simp [hp] at h
    · simp only [hp, Prod.mk.injEq, Poll.ready.injEq, Except.error.injEq] at h
      rw [h.1, h.2] at hp
      exact dead_of_pollFillRx hfill.1 hfill.2 hp
    · simp [hp, handOut] at h
  · simp [handOut] at h

/-- The reading side of `t` is that of `s`. -/
structure SameReading (s t : NoiseStream) : Prop where
  stage : t.stage = s.stage
  plain : t.plain = s.plain
  eof : t.eof = s.eof
  rxNonce : t.session.rxNonce = s.session.rxNonce
  rxFailed : t.session.rxFailed = s.session.rxFailed
  incoming : t.incoming = s.incoming
  closed : t.closed = s.closed

theorem Dead.of_sameReading {t : NoiseStream} (h : s.Dead) (hst : SameReading s t) : t.Dead where
  plain := hst.plain.trans h.plain
  eof := hst.eof.trans h.eof
  stage := by
    rw [hst.stage, hst.rxFailed]
    exact h.stage

theorem pollFlush_eq (s : NoiseStream) (answers : List WriteAnswer) :
    ∃ out rest, s.pending = out ++ rest ∧
      (s.pollFlush answers).2 = { s with pending := rest, outgoing := s.outgoing ++ out } := by
  have hsame : ∃ out rest, s.pending = out ++ rest ∧
      s = { s with pending := rest, outgoing := s.outgoing ++ out } :=
    ⟨[], s.pending, rfl, by rw [List.append_nil]⟩
  induction answers generalizing s with
  | nil =>
    rw [pollFlush]
    split_ifs
    · exact hsame
    · exact hsame
  | cons a as ih =>
    by_cases hnil : s.pending = []
    · rw [pollFlush.eq_def]
      simpa only [if_pos hnil] using hsame
    · rw [pollFlush.eq_def]
      simp only [if_neg hnil]
      cases a with
      | upTo k =>
        obtain ⟨out, rest, hpending, heq⟩ := ih { s with
          outgoing := s.outgoing ++ s.pending.take (k + 1), pending := s.pending.drop (k + 1) }
          ⟨[], _, rfl, by rw [List.append_nil]⟩
        have hpending : s.pending.drop (k + 1) = out ++ rest := hpending
        refine ⟨s.pending.take (k + 1) ++ out, rest, ?_, ?_⟩
        · rw [List.append_assoc, ← hpending, List.take_append_drop]
        · rw [← List.append_assoc]
          exact heq
      | zero => exact hsame
      | pending => exact hsame
      | error => exact hsame

theorem pollFlush_error_iff (s : NoiseStream) (answers : List WriteAnswer) :
    (∃ e, (s.pollFlush answers).1 = .ready (.error e)) ↔
      refuses s.pending.length answers = true := by
  induction answers generalizing s with
  | nil =>
    rw [pollFlush, refuses]
    split_ifs <;> simp
  | cons a as ih =>
    rw [pollFlush.eq_def, refuses.eq_def]
    simp only [List.length_eq_zero_iff]
    split_ifs with hnil
    · simp
    · cases a with
      | upTo k =>
        dsimp only
        rw [ih, List.length_drop]
      | zero => simp
      | pending => simp
      | error => simp

theorem length_flatMap_record (hencrypt : Total encrypt) {cs : List Bytes}
    (hcs : ∀ c ∈ cs, c.length ≤ maxPlaintextSize) (counter : UInt64) :
    ((numbered counter cs).flatMap (record encrypt)).length =
      cs.flatten.length + cs.length * (headerLen + aeadTagLen) := by
  induction cs generalizing counter with
  | nil => rfl
  | cons c cs ih =>
    have hc := @length_record encrypt hencrypt (recordNonce counter, c) (hcs c List.mem_cons_self)
    rw [numbered, List.flatMap_cons, List.length_append, hc,
      ih fun d hd => hcs d (List.mem_cons_of_mem c hd), List.flatten_cons, List.length_append,
      List.length_cons]
    ring

/-- What `poll_write` comes to: the nonces do not suffice and nothing is written, or the records of
the buffer go behind what is pending and a part of that is written. -/
theorem pollWrite_cases (hencrypt : Total encrypt) {buf : Bytes} (hbuf : buf ≠ [])
    (s : NoiseStream) (answers : List WriteAnswer) :
    (2 ^ 64 - 1 < s.session.txNonce.toNat + (chunks maxPlaintextSize buf).length ∧
      (s.session.sealPlaintext encrypt buf).1 = .error .desync ∧
      s.pollWrite encrypt buf answers = (.ready (.error (.invalidData .desync)),
        { s with session := { s.session with txNonce := invalidNonce } })) ∨
    ∃ (session : Session) (out : Bytes), (s.session.sealPlaintext encrypt buf).1 = .ok out ∧
      session.txNonce.toNat = s.session.txNonce.toNat + (chunks maxPlaintextSize buf).length ∧
      session.rxNonce = s.session.rxNonce ∧ session.rxFailed = s.session.rxFailed ∧
      (s.pollWrite encrypt buf answers).2 = (pollFlush { s with
        session, pending := s.pending ++
          (numbered s.session.txNonce (chunks maxPlaintextSize buf)).flatMap (record encrypt) }
        answers).2 ∧
      ((∃ e, (s.pollWrite encrypt buf answers).1 = .ready (.error e)) ∧
          refuses (s.pending.length + sealedLen buf) answers = true ∨
        (s.pollWrite encrypt buf answers).1 = .ready (.ok buf.length) ∧
          refuses (s.pending.length + sealedLen buf) answers = false) := by
  have hmax : 0 < maxPlaintextSize := by decide
  have hcs : ∀ c ∈ chunks maxPlaintextSize buf, c.length ≤ maxPlaintextSize :=
    fun c hc => (length_of_mem_chunks hmax hc).2
  rw [pollWrite, if_neg hbuf, Session.sealPlaintext]
  rcases sealChunks_eq (s := s.session) hencrypt hcs with
    ⟨-, session, htx, hrx, hfailed, heq⟩ | ⟨hroom, heq⟩
  · right
    refine ⟨session, _, by rw [heq], htx, hrx, hfailed, ?_⟩
    rw [heq]
    dsimp only
    have hlen : (s.pending ++ (numbered s.session.txNonce (chunks maxPlaintextSize buf)).flatMap
        (record encrypt)).length = s.pending.length + sealedLen buf := by
      rw [List.length_append, length_flatMap_record hencrypt hcs, flatten_chunks hmax, sealedLen]
    have herror := pollFlush_error_iff { s with session, pending := s.pending ++
      (numbered s.session.txNonce (chunks maxPlaintextSize buf)).flatMap (record encrypt) } answers
    rw [hlen] at herror
    rcases hflush : pollFlush { s with session, pending := s.pending ++
      (numbered s.session.txNonce (chunks maxPlaintextSize buf)).flatMap (record encrypt) }
      answers with ⟨_ | _ | ⟨⟩, t⟩
    · exact ⟨rfl, .inr ⟨rfl, by simpa [hflush] using herror⟩⟩
    · exact ⟨rfl, .inl ⟨⟨_, rfl⟩, by simpa [hflush] using herror⟩⟩
    · exact ⟨rfl, .inr ⟨rfl, by simpa [hflush] using herror⟩⟩
  · exact .inl ⟨hroom, by rw [heq], by rw [heq]⟩

theorem sameReading_of_pollFlush (s : NoiseStream) (answers : List WriteAnswer) :
    SameReading s (s.pollFlush answers).2 := by
  obtain ⟨out, rest, -, heq⟩ := s.pollFlush_eq answers
  rw [heq]
  exact ⟨rfl, rfl, rfl, rfl, rfl, rfl, rfl⟩

theorem sameReading_of_pollWrite (hencrypt : Total encrypt) (s : NoiseStream) (buf : Bytes)
    (answers : List WriteAnswer) : SameReading s (s.pollWrite encrypt buf answers).2 := by
  by_cases hbuf : buf = []
  · rw [pollWrite, if_pos hbuf]
    exact ⟨rfl, rfl, rfl, rfl, rfl, rfl, rfl⟩
  rcases pollWrite_cases hencrypt hbuf s answers with
    ⟨-, -, heq⟩ | ⟨session, -, -, -, hrx, hfailed, heq, -⟩
  · rw [heq]
    exact ⟨rfl, rfl, rfl, rfl, rfl, rfl, rfl⟩
  · rw [heq]
    obtain ⟨hstage, hplain, heof, hnonce, hfail, hincoming, hclosed⟩ :=
      sameReading_of_pollFlush { s with
      session
      pending := s.pending ++
        (numbered s.session.txNonce (chunks maxPlaintextSize buf)).flatMap (record encrypt) }
      answers
    exact ⟨hstage, hplain, heof, hnonce.trans hrx, hfail.trans hfailed, hincoming, hclosed⟩

theorem Dead.act (hencrypt : Total encrypt) (h : s.Dead) (a : Act) :
    (s.act encrypt decrypt a).Dead := by
  cases a with
  | read room answers =>
    obtain ⟨e, he⟩ := @pollRead_of_dead decrypt s h room answers
    rw [NoiseStream.act, he]
    exact h
  | write buf answers => exact h.of_sameReading (sameReading_of_pollWrite hencrypt s buf answers)
  | flush answers => exact h.of_sameReading (s.sameReading_of_pollFlush answers)
  | arrive bytes => exact ⟨h.plain, h.eof, h.stage⟩
  | close => exact ⟨h.plain, h.eof, h.stage⟩

theorem fails_iff_of_dead (hencrypt : Total encrypt) (h : s.Dead) (a : Act) :
    Fails encrypt decrypt s a ↔ WriteFails s a := by
  cases a with
  | read room answers =>
    obtain ⟨e, he⟩ := @pollRead_of_dead decrypt s h room answers
    exact iff_of_true ⟨e, congrArg Prod.fst he⟩ trivial
  | write buf answers =>
    refine forall_congr' fun hbuf => ?_
    rcases pollWrite_cases hencrypt hbuf s answers with
      ⟨hroom, -, heq⟩ | ⟨session, -, -, htx, -, -, -, ⟨herror, hrefuse⟩ | ⟨hok, haccept⟩⟩
    · exact iff_of_true ⟨_, congrArg Prod.fst heq⟩ (.inl hroom)
    · exact iff_of_true herror (.inr hrefuse)
    · refine iff_of_false (fun ⟨e, he⟩ => nomatch hok.symm.trans he) ?_
      have hlt := session.txNonce.toNat_lt
      rintro (hroom | hrefuse)
      · omega
      · exact nomatch haccept.symm.trans hrefuse
  | flush answers => exact Iff.rfl
  | arrive bytes => exact Iff.rfl
  | close => exact Iff.rfl

/-- After a read that failed on a record every later read fails, and every later write fails
exactly where the nonces or the transport make it fail. -/
theorem fails_closed_iff (hencrypt : Total encrypt) {room : ℕ} {answers : List ReadAnswer}
    {e : ControlbaseError} {t : NoiseStream}
    (h : s.pollRead decrypt room answers = (.ready (.error (.invalidData e)), t)) (as : List Act) :
    Transition.Meets (step encrypt decrypt) (Fails encrypt decrypt) t as ↔
      Transition.Meets (step encrypt decrypt) WriteFails t as := by
  have hdead := dead_of_pollRead h
  clear h
  induction as generalizing t with
  | nil => exact Iff.rfl
  | cons a as ih =>
    refine and_congr (fails_iff_of_dead hencrypt hdead a) (forall_congr' fun u => ?_)
    refine forall_congr' fun hu => ih ?_
    cases hu
    exact hdead.act hencrypt a

section Lab

def labEncrypt (_ msg : Bytes) : Option Bytes := some (msg ++ List.replicate 16 0)

def labDecrypt (_ ct : Bytes) : Option Bytes :=
  if ct.drop (ct.length - 16) = List.replicate 16 0 then some (ct.take (ct.length - 16)) else none

theorem labEncrypt_total : Total labEncrypt := fun _ msg _ =>
  ⟨_, rfl, by rw [List.length_append, List.length_replicate, aeadTagLen]⟩

/-- An error frame has arrived instead of a record. -/
def labStream : NoiseStream := { incoming := [3, 0, 0] }

/-- The stream after the read that fails. -/
def labBroken : NoiseStream := { stage := .header [3, 0, 0] }

theorem fails_closed_iff_lab :
    labStream.pollRead labDecrypt 10 [.upTo 2] =
        (.ready (.error (.invalidData .malformedFrame)), labBroken) ∧
      Transition.Meets (step labEncrypt labDecrypt) (Fails labEncrypt labDecrypt) labBroken
        [.read 10 [], .write [1] [.error]] := by
  have hread : labStream.pollRead labDecrypt 10 [.upTo 2] =
      (.ready (.error (.invalidData .malformedFrame)), labBroken) := by decide
  refine ⟨hread, (fails_closed_iff labEncrypt_total hread _).mpr ⟨trivial, fun t ht => ?_⟩⟩
  cases ht
  exact ⟨fun _ => .inr (by decide), fun _ _ => trivial⟩

/-- A write after the failed read is accepted and reaches the transport. -/
theorem write_after_failed_read :
    labStream.pollRead labDecrypt 10 [.upTo 2] =
        (.ready (.error (.invalidData .malformedFrame)), labBroken) ∧
      (labBroken.pollWrite labEncrypt [1] [.upTo 30]).1 = .ready (.ok 1) ∧
      (labBroken.pollWrite labEncrypt [1] [.upTo 30]).2.outgoing =
        [4, 0, 17, 1] ++ List.replicate 16 0 := by
  decide

end Lab

end NoiseStream

end Controlbase

end Rill
