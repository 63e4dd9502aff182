import Rill.HandshakeAgreement

/-!
# Frames around a rekey

The two ends of a session rekey at times of their own. A frame is sealed with the key that its
sender has after some number of rekeys. Its receiver has one key for each number of rekeys, and
keeps the previous one for `rekeyResidue` after its own rekey; it never has the next one.
-/

namespace Rill

/-- Among the first `n` keys of the chain each opens only what it has sealed. -/
def Crypto.SeparatesChain (C : Crypto) (key : Bytes) (n : ℕ) : Prop :=
  ∀ i < n, ∀ j < n, i ≠ j → ∀ nonce aad msg ct tag,
    C.encrypt (C.rekeyChain^[i] key) nonce aad msg = some (ct, tag) →
      C.decrypt (C.rekeyChain^[j] key) nonce aad ct tag = none

/-- A frame does not open with a key that does not open its ciphertext. -/
theorem Crypto.openFrame_buildFrame_other {C : Crypto} {header : MeshFrameHeader}
    {keyDst key key' payload f : Bytes} {salt : UInt32} (hver : header.version = Rill.version)
    (hlen : payload.length + tagLen < 65536)
    (hf : C.buildFrame header keyDst key salt payload = .ok f)
    (hother : ∀ nonce aad ct tag, C.encrypt key nonce aad payload = some (ct, tag) →
      C.decrypt key' nonce aad ct tag = none) :
    C.openFrame f keyDst key' salt = .error (.aead {}) := by
  rw [buildFrame_eq] at hf
  split at hf
  · nomatch hf
  · rename_i ct tag henc
    cases hf
    obtain ⟨hct, htag⟩ := C.encrypt_length henc
    rw [openFrame_sealed hver hlen hct htag, hother _ _ _ _ henc]

def Role.other : Role → Role
  | .initiator => .responder
  | .responder => .initiator

/-- What an end of a session does: it rekeys, it opens a frame, or it draws a number to seal one. -/
inductive LinkOp where
  | rekey (now : ℕ)
  | receive (c : Session.OpenCall)
  | draw

def LinkOp.time : LinkOp → Option ℕ
  | .rekey now => some now
  | .receive c => some c.now
  | .draw => none

def LinkOp.rekeyed : LinkOp → List ℕ
  | .rekey now => [now]
  | .receive _ => []
  | .draw => []

/-- A frame sealed when the sender had made `sent` rekeys arrives at `now` at an end that has made
rekeys at the times `got`. -/
def Link.Overlaps (sent : ℕ) (got : List ℕ) (now : ℕ) : Prop :=
  got.length = sent ∨ got.length = sent + 1 ∧ ∀ t ∈ got.getLast?, now < t + rekeyResidue

instance (sent : ℕ) (got : List ℕ) (now : ℕ) : Decidable (Link.Overlaps sent got now) :=
  inferInstanceAs (Decidable (_ ∨ _ ∧ _))

namespace Session
variable {C : Crypto}

def live (C : Crypto) (s : Session) : LinkOp → Session
  | .rekey now => s.rekey C now
  | .receive c => (s.serve C c).2
  | .draw => s.nextSeq.2

/-- The window for the frames of the key that was in use `n` rekeys ago. -/
def windowBehind (s : Session) : ℕ → Option ReplayWindow
  | 0 => some s.rxWindow
  | 1 => s.oldRx.map OldRx.window
  | _ => none

/-- The previous receive key, if it is still in use at `now`. -/
def oldKeyAt (s : Session) (now : ℕ) : Option Bytes :=
  s.oldRx.bind fun old => if old.expiresAt ≤ now then none else some old.key

theorem oldKeyAt_eq_none_iff {s : Session} {now : ℕ} :
    s.oldKeyAt now = none ↔ ∀ old, s.oldRx = some old → old.expiresAt ≤ now := by
  unfold oldKeyAt
  cases s.oldRx with
  | none => simp
  | some old => simp

theorem oldKeyAt_eq_some_iff {s : Session} {now : ℕ} {key : Bytes} :
    s.oldKeyAt now = some key ↔
      ∃ old, s.oldRx = some old ∧ ¬ old.expiresAt ≤ now ∧ old.key = key := by
  unfold oldKeyAt
  cases s.oldRx with
  | none => simp
  | some old => simp

theorem openWith_oldKeyAt {α : Type} {t now : ℕ} (ht : t ≤ now) (s : Session)
    (tryKey : Bytes → Except FrameOpenError (MeshFrameHeader × α)) :
    (s.openWith tryKey t).2.keys = s.keys ∧
      (s.openWith tryKey t).2.oldKeyAt now = s.oldKeyAt now := by
  cases hk : tryKey s.keys.rxKey with
  | ok r =>
    rw [openWith_current hk]
    exact ⟨rfl, rfl⟩
  | error e =>
    by_cases he : ∃ a, e = .aead a
    · obtain ⟨a, rfl⟩ := he
      cases ho : s.oldRx with
      | none =>
        rw [openWith_no_old hk ho]
        exact ⟨rfl, rfl⟩
      | some old =>
        by_cases hexp : old.expiresAt ≤ t
        · rw [openWith_expired hk ho hexp]
          refine ⟨rfl, ?_⟩
          rw [oldKeyAt, oldKeyAt, ho, Option.bind_some, if_pos (hexp.trans ht)]
          rfl
        · cases hq : tryKey old.key with
          | ok r =>
            rw [openWith_old hk ho hexp hq]
            refine ⟨rfl, ?_⟩
            rw [oldKeyAt, oldKeyAt, ho]
            rfl
          | error e =>
            rw [openWith_old_rejected hk ho hexp hq]
            exact ⟨rfl, rfl⟩
    · rw [openWith_rejected hk (fun a ha => he ⟨a, ha⟩)]
      exact ⟨rfl, rfl⟩

/-- The session of an end that was given `keys` and has rekeyed at the times `got`, as it stands
at `now`. -/
structure Tracks (C : Crypto) (keys : SessionKeys) (got : List ℕ) (now : ℕ) (s : Session) :
    Prop where
  salt_eq : s.keys.salt = keys.salt
  txKey_eq : s.keys.txKey = C.rekeyChain^[got.length] keys.txKey
  rxKey_eq : s.keys.rxKey = C.rekeyChain^[got.length] keys.rxKey
  oldKey_eq : s.oldKeyAt now = got.getLast?.bind fun t =>
    if t + rekeyResidue ≤ now then none else some (C.rekeyChain^[got.length - 1] keys.rxKey)

theorem tracks_new (C : Crypto) (peer : UInt32) (keys : SessionKeys) (now : ℕ) :
    Tracks C keys [] now (Session.new peer keys) :=
  ⟨rfl, rfl, rfl, rfl⟩

theorem Tracks.live {keys : SessionKeys} {got : List ℕ} {now : ℕ} {s : Session}
    (hs : Tracks C keys got now s) {op : LinkOp} (hop : ∀ t ∈ op.time, t ≤ now) :
    Tracks C keys (got ++ op.rekeyed) now (s.live C op) := by
  cases op with
  | rekey t =>
    have hlen : (got ++ [t]).length = got.length + 1 := by simp
    refine ⟨hs.salt_eq, ?_, ?_, ?_⟩
    · rw [LinkOp.rekeyed, hlen, Function.iterate_succ_apply', ← hs.txKey_eq]
      rfl
    · rw [LinkOp.rekeyed, hlen, Function.iterate_succ_apply', ← hs.rxKey_eq]
      rfl
    · rw [LinkOp.rekeyed, hlen, List.getLast?_concat, Nat.add_sub_cancel, ← hs.rxKey_eq]
      rfl
  | receive c =>
    have hkeep := openWith_oldKeyAt (hop c.now rfl) s
      fun key => C.openFrame c.frame c.keyDst key s.keys.salt
    have hlive : s.live C (.receive c) = (s.openFrame C c.frame c.keyDst c.now).2 := by
      rw [Session.live, serve_eq_openFrame]
    rw [LinkOp.rekeyed, List.append_nil, hlive, openFrame]
    exact ⟨by rw [hkeep.1, hs.salt_eq], by rw [hkeep.1, hs.txKey_eq], by rw [hkeep.1, hs.rxKey_eq],
      hkeep.2.trans hs.oldKey_eq⟩
  | draw =>
    rw [LinkOp.rekeyed, List.append_nil]
    exact ⟨hs.salt_eq, hs.txKey_eq, hs.rxKey_eq, hs.oldKey_eq⟩

/-- A frame that opens with the key of `sent` rekeys, and with no other key up to the current one. -/
theorem Tracks.openFrame_eq {keys : SessionKeys} {got : List ℕ} {now sent : ℕ} {s : Session}
    (hs : Tracks C keys got now s) {f keyDst payload : Bytes} {h : MeshFrameHeader}
    (hopen : C.openFrame f keyDst (C.rekeyChain^[sent] keys.rxKey) keys.salt = .ok (h, payload))
    (hother : ∀ j ≤ got.length, j ≠ sent →
      C.openFrame f keyDst (C.rekeyChain^[j] keys.rxKey) keys.salt = .error (.aead {}))
    (hfresh : sent ≤ got.length → ∀ w ∈ s.windowBehind (got.length - sent),
      (w.checkAndMark h.seq).1 = true) :
    (s.openFrame C f keyDst now).1 =
      if Link.Overlaps sent got now then .ok (h, payload) else .error .aead := by
  rw [openFrame, hs.salt_eq]
  by_cases hsame : got.length = sent
  · have hk : C.openFrame f keyDst s.keys.rxKey keys.salt = .ok (h, payload) := by
      rw [hs.rxKey_eq, hsame, hopen]
    have hmark := hfresh hsame.ge s.rxWindow (by rw [hsame, Nat.sub_self]; rfl)
    have hlap : Link.Overlaps sent got now := Or.inl hsame
    rw [openWith_current hk, if_pos hmark, if_pos hlap]
  have hk : C.openFrame f keyDst s.keys.rxKey keys.salt = .error (.aead {}) := by
    rw [hs.rxKey_eq, hother _ le_rfl hsame]
  cases hold : s.oldKeyAt now with
  | none =>
    have hout :
        (s.openWith (fun key => C.openFrame f keyDst key keys.salt) now).1 = .error .aead := by
      cases ho : s.oldRx with
      | none => rw [openWith_no_old hk ho]
      | some old => rw [openWith_expired hk ho (oldKeyAt_eq_none_iff.mp hold old ho)]
    rw [hout, if_neg]
    rintro (hlen | ⟨hlen, hlast⟩)
    · exact hsame hlen
    -- the receiver has made a rekey, and its previous key is gone
    · cases hget : got.getLast? with
      | none => simp [List.getLast?_eq_none_iff.mp hget] at hlen
      | some t =>
        have hnow := hlast t hget
        have := hs.oldKey_eq
        rw [hold, hget, Option.bind_some, if_neg (by omega)] at this
        cases this
  | some key =>
    obtain ⟨old, ho, hexp, hkey⟩ := oldKeyAt_eq_some_iff.mp hold
    have hlast := hs.oldKey_eq
    rw [hold] at hlast
    obtain ⟨t, hget, ht⟩ := Option.bind_eq_some_iff.mp hlast.symm
    split_ifs at ht with hres
    cases ht
    have hpos : 0 < got.length := List.length_pos_iff.mpr fun hnil => by simp [hnil] at hget
    by_cases hprev : got.length = sent + 1
    · have hq : C.openFrame f keyDst old.key keys.salt = .ok (h, payload) := by
        rw [hkey, hprev, Nat.add_sub_cancel, hopen]
      have hmark := hfresh (by omega) old.window
        (by rw [hprev, Nat.add_sub_cancel_left, windowBehind, ho]; rfl)
      have hlap : Link.Overlaps sent got now := by
        refine Or.inr ⟨hprev, fun u hu => ?_⟩
        cases hget.symm.trans hu
        omega
      rw [openWith_old hk ho hexp hq, if_pos hmark, if_pos hlap]
    · have hq : C.openFrame f keyDst old.key keys.salt = .error (.aead {}) := by
        rw [hkey, hother _ (Nat.sub_le _ _) (by omega)]
      rw [openWith_old_rejected hk ho hexp hq, if_neg]
      rintro (hlen | ⟨hlen, -⟩)
      · exact hsame hlen
      · exact hprev hlen

end Session

/-- The two ends of a session. -/
abbrev Link := Role → Session

namespace Link
variable (C : Crypto)

def step (l : Link) (e : Role × LinkOp) : Link := Function.update l e.1 ((l e.1).live C e.2)

def run (l : Link) (ops : List (Role × LinkOp)) : Link := ops.foldl (step C) l

def start (peers : Role → UInt32) (keys : Role → SessionKeys) : Link :=
  fun role => Session.new (peers role) (keys role)

def rekeyTimes (role : Role) (ops : List (Role × LinkOp)) : List ℕ :=
  (ops.filter fun e => e.1 = role).flatMap fun e => e.2.rekeyed

variable {C}

theorem run_tracks (peers : Role → UInt32) (keys : Role → SessionKeys) (role : Role) {now : ℕ}
    (ops : List (Role × LinkOp)) (hops : ∀ e ∈ ops, ∀ t ∈ e.2.time, t ≤ now) :
    Session.Tracks C (keys role) (rekeyTimes role ops) now (run C (start peers keys) ops role) := by
  induction ops using List.reverseRecOn with
  | nil => exact Session.tracks_new C _ _ now
  | append_singleton ops e ih =>
    have hrun : run C (start peers keys) (ops ++ [e]) = (run C (start peers keys) ops).step C e := by
      simp [run]
    have ih := ih fun e' he' => hops e' (List.mem_append_left _ he')
    rw [hrun, step]
    by_cases hrole : e.1 = role
    · subst hrole
      have hgot : rekeyTimes e.1 (ops ++ [e]) = rekeyTimes e.1 ops ++ e.2.rekeyed := by
        simp [rekeyTimes]
      rw [hgot, Function.update_self]
      exact ih.live (hops e (by simp))
    · have hgot : rekeyTimes role (ops ++ [e]) = rekeyTimes role ops := by
        simp [rekeyTimes, hrole]
      rwa [hgot, Function.update_of_ne (Ne.symm hrole)]

theorem length_rekeyTimes_le (role : Role) (ops : List (Role × LinkOp)) :
    (rekeyTimes role ops).length ≤ ops.length := by
  have hone : ∀ op : LinkOp, op.rekeyed.length ≤ 1 := by
    intro op
    cases op <;> simp [LinkOp.rekeyed]
  induction ops with
  | nil => exact le_rfl
  | cons e ops ih =>
    by_cases hrole : e.1 = role
    · have := hone e.2
      simp only [rekeyTimes, List.filter_cons, hrole, decide_true, if_true, List.flatMap_cons,
        List.length_append, List.length_cons] at ih ⊢
      omega
    · simp only [rekeyTimes, List.filter_cons, hrole, decide_false, List.length_cons] at ih ⊢
      simp only [Bool.false_eq_true, if_false]
      omega

/-- A frame that one end seals after `before` and the other opens after `before ++ after`. -/
theorem rekey_overlap_iff {maxLen : ℕ} (hC : C.Lawful maxLen) (peers : Role → UInt32)
    (keys : Role → SessionKeys) (sender : Role)
    (hmirror : (keys sender).Mirrored (keys sender.other)) (before after : List (Role × LinkOp))
    (hsep : C.SeparatesChain (keys sender).txKey ((before ++ after).length + 1)) {now : ℕ}
    (hclock : ∀ e ∈ before ++ after, ∀ t ∈ e.2.time, t ≤ now) {header : MeshFrameHeader}
    {keyDst payload f : Bytes} (hver : header.version = Rill.version)
    (hlen : payload.length + tagLen < 65536)
    (hf : C.buildFrame header keyDst (run C (start peers keys) before sender).keys.txKey
      (run C (start peers keys) before sender).keys.salt payload = .ok f)
    (hfresh : (rekeyTimes sender before).length ≤
        (rekeyTimes sender.other (before ++ after)).length →
      ∀ w ∈ (run C (start peers keys) (before ++ after) sender.other).windowBehind
          ((rekeyTimes sender.other (before ++ after)).length - (rekeyTimes sender before).length),
        (w.checkAndMark header.seq).1 = true) :
    (((run C (start peers keys) (before ++ after) sender.other).openFrame C f keyDst now).1 =
        .ok (C.sealedHeader header keyDst payload, payload) ↔
      Overlaps (rekeyTimes sender before).length (rekeyTimes sender.other (before ++ after)) now) ∧
    (((run C (start peers keys) (before ++ after) sender.other).serve C ⟨true, f, keyDst, now⟩).1 =
        some (C.sealedHeader header keyDst payload) ↔
      Overlaps (rekeyTimes sender before).length (rekeyTimes sender.other (before ++ after)) now) := by
  have hbefore : ∀ e ∈ before, ∀ t ∈ e.2.time, t ≤ now := fun e he =>
    hclock e (List.mem_append_left _ he)
  have hsender := run_tracks (C := C) peers keys sender before hbefore
  have hreceiver := run_tracks (C := C) peers keys sender.other (before ++ after) hclock
  have hsent := length_rekeyTimes_le sender before
  have hgot := length_rekeyTimes_le sender.other (before ++ after)
  rw [hsender.txKey_eq, hsender.salt_eq] at hf
  have hopen := Crypto.openFrame_buildFrame hC hver hlen hf
  have hother : ∀ j ≤ (rekeyTimes sender.other (before ++ after)).length,
      j ≠ (rekeyTimes sender before).length →
        C.openFrame f keyDst (C.rekeyChain^[j] (keys sender).txKey) (keys sender).salt =
          .error (.aead {}) := by
    intro j hj hne
    refine Crypto.openFrame_buildFrame_other hver hlen hf fun nonce aad ct tag henc => ?_
    rw [List.length_append] at hgot
    refine hsep _ ?_ j ?_ hne.symm _ _ _ _ _ henc <;> rw [List.length_append] <;> omega
  rw [hmirror.tx, hmirror.salt] at hopen hother
  rw [Session.serve_eq_openFrame, hreceiver.openFrame_eq hopen hother hfresh]
  split_ifs with hlap
  · exact ⟨iff_of_true rfl hlap, iff_of_true rfl hlap⟩
  · exact ⟨iff_of_false (nomatch ·) hlap, iff_of_false (nomatch ·) hlap⟩

end Link

/-- The cipher that leaves every text in clear under a tag that tells the length of the key. A
derived key is one byte longer than the one it comes from. -/
def Crypto.keyed (maxLen : ℕ) : Crypto where
  encrypt key _ _ msg := if msg.length ≤ maxLen then some (msg, beBytes 16 key.length) else none
  decrypt key _ _ ct tag := if tag = beBytes 16 key.length then some ct else none
  hkdf _ ikm _ _ := 0 :: ikm
  encrypt_length h := by
    split_ifs at h
    cases h
    exact ⟨rfl, length_beBytes _ _⟩
  decrypt_length h := by
    split_ifs at h
    rw [Option.some.inj h]

theorem Crypto.keyed_lawful (maxLen : ℕ) : (Crypto.keyed maxLen).Lawful maxLen where
  encrypt_isSome key nonce aad msg := by
    simp only [Crypto.keyed]
    split_ifs with h <;> simp [h]
  decrypt_encrypt h := by
    simp only [Crypto.keyed] at h ⊢
    split_ifs at h
    cases h
    exact if_pos rfl

theorem Crypto.length_keyed_rekeyChain (maxLen n : ℕ) (key : Bytes) :
    ((Crypto.keyed maxLen).rekeyChain^[n] key).length = key.length + n := by
  induction n with
  | zero => rfl
  | succ n ih =>
    rw [Function.iterate_succ_apply', rekeyChain]
    exact congrArg Nat.succ ih

theorem Crypto.keyed_separatesChain (maxLen : ℕ) {key : Bytes} {n : ℕ}
    (hn : key.length + n ≤ 256 ^ 16) : (Crypto.keyed maxLen).SeparatesChain key n := by
  intro i hi j hj hne nonce aad msg ct tag henc
  have htag : tag = beBytes 16 (key.length + i) := by
    rw [← length_keyed_rekeyChain maxLen i]
    simp only [Crypto.keyed] at henc ⊢
    split_ifs at henc
    exact (Prod.mk.inj (Option.some.inj henc)).2.symm
  refine if_neg fun hsame => hne ?_
  rw [htag, length_keyed_rekeyChain] at hsame
  have := beBytes_injective (by omega) (by omega) hsame
  omega

namespace Link

def keyedKeys : Role → SessionKeys
  | .initiator => ⟨0, [1], [2]⟩
  | .responder => ⟨0, [2], [1]⟩

def keyedStart : Link := start (fun _ => 1) keyedKeys

/-- The frame with the sequence number 0 that an end seals. -/
def keyedFrame (s : Session) : Bytes :=
  ((Crypto.keyed 64).buildFrame {} [] s.keys.txKey s.keys.salt [7]).toOption.getD []

def seconds (n : ℕ) : ℕ := n * 1000000000

/-- At no time has one end made two rekeys more than the other. -/
def InStep (ops : List (Role × LinkOp)) : Prop :=
  ∀ k < ops.length + 1, (rekeyTimes .initiator (ops.take k)).length ≤
      (rekeyTimes .responder (ops.take k)).length + 1 ∧
    (rekeyTimes .responder (ops.take k)).length ≤ (rekeyTimes .initiator (ops.take k)).length + 1

instance (ops : List (Role × LinkOp)) : Decidable (InStep ops) :=
  inferInstanceAs (Decidable (∀ _, _ → _))

/-- The sender is first and the frame arrives one second before the rekey of the receiver; or the
receiver is first, and the frame arrives one second before the rekey of the sender. -/
theorem frames_lost_around_rekey :
    (InStep [(.initiator, .rekey 0), (.responder, .rekey (seconds 2))] ∧
      (run (Crypto.keyed 64) keyedStart [(.initiator, .rekey 0)] .responder).openFrame
          (Crypto.keyed 64)
          (keyedFrame (run (Crypto.keyed 64) keyedStart [(.initiator, .rekey 0)] .initiator)) []
          (seconds 1) =
        (.error .aead, keyedStart .responder)) ∧
    (InStep [(.responder, .rekey 0), (.initiator, .rekey (seconds 10))] ∧
      ((run (Crypto.keyed 64) keyedStart [(.responder, .rekey 0)] .responder).openFrame
          (Crypto.keyed 64)
          (keyedFrame (run (Crypto.keyed 64) keyedStart [(.responder, .rekey 0)] .initiator)) []
          (seconds 9)).1 = .error .aead) := by
  refine ⟨⟨by decide, ?_⟩, by decide, ?_⟩ <;> decide +kernel

/-- The receiver has rekeyed four seconds ago. -/
theorem frame_opens_after_rekey :
    ((run (Crypto.keyed 64) keyedStart [(.responder, .rekey 0)] .responder).openFrame
      (Crypto.keyed 64) (keyedFrame (keyedStart .initiator)) [] (seconds 4)).1 =
        .ok ((Crypto.keyed 64).sealedHeader {} [] [7], [7]) :=
  (rekey_overlap_iff (Crypto.keyed_lawful 64) (fun _ => 1) keyedKeys .initiator
    ⟨rfl, rfl, rfl⟩ [] [(.responder, .rekey 0)] (Crypto.keyed_separatesChain 64 (by decide))
    (by decide) rfl (by decide) (by decide +kernel) (by decide)).1.mpr (by decide)

end Link

end Rill
