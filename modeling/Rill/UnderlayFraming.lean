import Rill.FramedReader
import Rill.Incoming

/-!
# Frames on a TCP underlay connection

`send_frame` writes a 16-bit length in front of a frame and takes every frame the length can
announce. The `read_conn` loop at the other end closes the connection on a length above the limit
for datagrams. What is sent arrives as it was sent, whatever the segments, exactly if no frame is
above that limit.
-/

namespace Rill.TcpUnderlay
open FramedReader

/-- The check of `send_frame`. -/
def accepts (buf : Bytes) : Bool := !(buf.isEmpty || decide (65535 < buf.length))

/-- A frame that `send_frame` takes. -/
abbrev Sent := { buf : Bytes // accepts buf = true }

theorem Sent.length_pos (w : Sent) : 0 < w.1.length := by
  obtain ⟨buf, h⟩ := w
  rw [accepts] at h
  simp only [Bool.not_or, Bool.and_eq_true, Bool.not_eq_true', List.isEmpty_eq_false_iff] at h
  exact List.length_pos_iff.mpr h.1

theorem Sent.length_le (w : Sent) : w.1.length ≤ 65535 := by
  obtain ⟨buf, h⟩ := w
  rw [accepts] at h
  simp only [Bool.not_or, Bool.and_eq_true, Bool.not_eq_true', decide_eq_false_iff_not] at h
  exact Nat.not_lt.mp h.2

theorem readBE_beBytes_length (w : Sent) : readBE (beBytes 2 w.1.length) = w.1.length := by
  have hlen := w.length_le
  rw [readBE_beBytes, Nat.mod_eq_of_lt (by omega)]

/-- The bounds `read_conn` sets on an announced length. -/
def announced (len : ℕ) : Option ℕ := if len = 0 ∨ maxFrame < len then none else some len

/-- `send_frame` on one side of the connection and a turn of `read_conn` on the other. -/
def connFraming : Framing UInt8 Sent Bytes where
  headLen := 2
  head w := beBytes 2 w.1.length
  body w := w.1
  bodyLen hdr := announced (readBE hdr)
  finish _ pkt := .result pkt
  headLen_pos := by decide
  length_head _ := length_beBytes 2 _
  bodyLen_head w n h := by
    rw [announced] at h
    split_ifs at h
    exact (Option.some.inj h).symm.trans (readBE_beBytes_length w)

/-- The segments arrive and `read_conn` reads; the connection is not torn down from outside. -/
def Flows : Act UInt8 → Prop
  | .deliver _ | .read => True
  | .cancel | .close => False

/-- Whatever the segments, the frames come out in order, all of them once all has been read, and
the loop does not end. -/
def Delivers (sent : List Sent) : Prop :=
  ∀ acts t, (∀ a ∈ acts, Flows a) →
    acts.flatMap Framing.arrives <+: sent.flatMap connFraming.wire →
    Transition.run connFraming.step {} acts = some t →
    t.failed = false ∧ t.returned <+: sent.map Subtype.val ∧
      (acts.flatMap Framing.arrives = sent.flatMap connFraming.wire → t.unread = [] →
        t.returned = sent.map Subtype.val)

theorem connFraming_verdict (w : Sent) :
    connFraming.verdict w = if maxFrame < w.1.length then .fail else .result w.1 := by
  have hpos := w.length_pos
  have hlen : connFraming.bodyLen (connFraming.head w) = announced w.1.length :=
    congrArg announced (readBE_beBytes_length w)
  rw [Framing.verdict, hlen, announced]
  by_cases hlong : maxFrame < w.1.length
  · rw [if_pos (.inr hlong), if_pos hlong]
  · rw [if_neg (by omega), if_neg hlong]
    rfl

theorem connFraming_value (w : Sent) :
    connFraming.value w = if maxFrame < w.1.length then none else some w.1 := by
  rw [Framing.value, connFraming_verdict]
  split_ifs <;> rfl

theorem whole_of_flows {acts : List (Act UInt8)} (h : ∀ a ∈ acts, Flows a) :
    Transition.Meets connFraming.step Framing.Whole {} acts := by
  refine Transition.meets_of_forall (fun s a ha => ?_) _
  cases a with
  | cancel => exact (h _ ha).elim
  | deliver | read | close => trivial

theorem delivers_of_small {sent : List Sent} (h : ∀ w ∈ sent, w.1.length ≤ maxFrame) :
    Delivers sent := by
  intro acts t hflow harrived hrun
  have hvalues : sent.filterMap connFraming.value = sent.map Subtype.val := by
    rw [← List.filterMap_eq_map]
    refine List.filterMap_congr fun w hw => ?_
    rw [connFraming_value, if_neg (Nat.not_lt.mpr (h w hw))]
    rfl
  obtain ⟨hreturned, hcomplete, hfailed⟩ :=
    Framing.faithful_of_run harrived (whole_of_flows hflow) hrun
  have hopen : t.failed = false := by
    by_contra hf
    rcases hfailed (by simpa using hf) with hclose | ⟨w, hw, hfail⟩
    · exact hflow _ hclose
    · rw [connFraming_verdict, if_neg (Nat.not_lt.mpr (h w hw))] at hfail
      cases hfail
  rw [hvalues] at hreturned hcomplete
  exact ⟨hopen, hreturned, fun hall hunread => hcomplete hall hunread hopen⟩

theorem unread_of_read {s t : Reader UInt8 Bytes} (h : connFraming.step s .read = some t) :
    ∃ b, s.unread = b :: t.unread := by
  rw [Framing.step] at h
  split_ifs at h
  cases hun : s.unread with
  | nil => simp [hun] at h
  | cons b unread =>
    rw [hun] at h
    refine ⟨b, ?_⟩
    rw [← Option.some.inj h]
    split <;> rfl

theorem exists_read {s : Reader UInt8 Bytes} (hopen : s.failed = false) (hun : s.unread ≠ []) :
    ∃ t, connFraming.step s .read = some t := by
  obtain ⟨b, unread, hcons⟩ := List.exists_cons_of_ne_nil hun
  rw [Framing.step, hopen, hcons]
  exact ⟨_, rfl⟩

/-- Everything arrives at once, and the loop reads `k` bytes. -/
def intake (sent : List Sent) (k : ℕ) : List (Act UInt8) :=
  .deliver (sent.flatMap connFraming.wire) :: .replicate k .read

theorem flows_intake (sent : List Sent) (k : ℕ) : ∀ a ∈ intake sent k, Flows a := by
  intro a ha
  rcases List.mem_cons.mp ha with rfl | ha
  · trivial
  · rw [(List.mem_replicate.mp ha).2]
    trivial

theorem arrives_intake (sent : List Sent) (k : ℕ) :
    (intake sent k).flatMap Framing.arrives = sent.flatMap connFraming.wire := by
  have hreads : (List.replicate k (Act.read (B := UInt8))).flatMap Framing.arrives = [] :=
    List.flatMap_eq_nil_iff.mpr fun a ha => by
      rw [(List.mem_replicate.mp ha).2]
      rfl
  rw [intake, List.flatMap_cons, hreads, List.append_nil, Framing.arrives]

theorem arrives_take (sent : List Sent) (k : ℕ) :
    (intake sent k).flatMap Framing.arrives <+: sent.flatMap connFraming.wire := by
  rw [arrives_intake]

theorem exists_run_intake {sent : List Sent} (h : Delivers sent) {k : ℕ}
    (hk : k ≤ (sent.flatMap connFraming.wire).length) :
    ∃ t, Transition.run connFraming.step {} (intake sent k) = some t ∧ t.failed = false ∧
      t.unread = (sent.flatMap connFraming.wire).drop k := by
  induction k with
  | zero => exact ⟨_, rfl, rfl, rfl⟩
  | succ k ih =>
    obtain ⟨s, hrun, hopen, hunread⟩ := ih (by omega)
    have hne : s.unread ≠ [] := by
      rw [hunread, ← List.length_pos_iff, List.length_drop]
      omega
    obtain ⟨t, ht⟩ := exists_read hopen hne
    have hnext : Transition.run connFraming.step {} (intake sent (k + 1)) = some t := by
      rw [intake, List.replicate_succ', ← List.cons_append, ← intake, Transition.run_append, hrun]
      simp [Transition.run, ht]
    refine ⟨t, hnext, ?_, ?_⟩
    · exact (h _ t (flows_intake sent _) (arrives_take sent _) hnext).1
    · obtain ⟨b, hb⟩ := unread_of_read ht
      rw [← List.drop_drop, ← hunread, hb]
      rfl

theorem small_of_delivers {sent : List Sent} (h : Delivers sent) :
    ∀ w ∈ sent, w.1.length ≤ maxFrame := by
  obtain ⟨t, hrun, hopen, hunread⟩ := exists_run_intake h le_rfl
  rw [List.drop_length] at hunread
  have hflow := flows_intake sent (sent.flatMap connFraming.wire).length
  have harrived := arrives_intake sent (sent.flatMap connFraming.wire).length
  have hall := (h _ t hflow (arrives_take sent _) hrun).2.2 harrived hunread
  have hvalues := (Framing.faithful_of_run (arrives_take sent _) (whole_of_flows hflow)
    hrun).complete harrived hunread hopen
  have hcount : (sent.filterMap connFraming.value).length = sent.length := by
    rw [← hvalues, hall, List.length_map]
  intro w hw
  have hsome := List.filterMap_length_eq_length.mp hcount w hw
  by_contra hlong
  rw [connFraming_value, if_pos (Nat.not_le.mp hlong)] at hsome
  cases hsome

/-- A connection carries what `send_frame` takes exactly if no frame is above the limit of the
reader. -/
theorem send_frame_delivers_iff (sent : List Sent) :
    Delivers sent ↔ ∀ w ∈ sent, w.1.length ≤ maxFrame :=
  ⟨small_of_delivers, delivers_of_small⟩

/-- The reader closes on the head of a frame of 2049 bytes. -/
theorem send_frame_refused : ∃ w : Sent, w.1.length = 2049 ∧
    ∃ t, Transition.run connFraming.step {} [.deliver ((connFraming.wire w).take 2), .read, .read] =
      some t ∧ t.failed = true ∧ t.returned = [] := by
  refine ⟨⟨.replicate 2049 0, by decide +kernel⟩, List.length_replicate .., ?_⟩
  have hhead : (connFraming.wire ⟨.replicate 2049 0, by decide +kernel⟩).take 2 = [8, 1] := by
    decide +kernel
  rw [hhead]
  exact ⟨_, rfl, rfl, rfl⟩

end Rill.TcpUnderlay
