import Rill.Transition

/-!
# Reading frames from a byte stream in calls that may be dropped

A frame is a head of fixed length, which says how long the body is, and the body. A call reads
frames until one of them is a result; what it has read of a frame is its own. The bytes arrive in
any pieces, and a call may be dropped at any point: what it has read is then gone. If calls are
dropped only between frames then the results are those of a first part of the frames sent.
-/

namespace FramedReader

inductive Verdict (F : Type) where
  | skip
  | result (f : F)
  | fail

def Verdict.toOption {F : Type} : Verdict F → Option F
  | .result f => some f
  | _ => none

/-- Frames `W` on the wire, and how they are read as results `F`. -/
structure Framing (B W F : Type) where
  headLen : ℕ
  head : W → List B
  body : W → List B
  bodyLen : List B → Option ℕ
  finish : List B → List B → Verdict F
  headLen_pos : 0 < headLen
  length_head : ∀ w, (head w).length = headLen
  bodyLen_head : ∀ w n, bodyLen (head w) = some n → n = (body w).length

/-- What a call has read of a frame. -/
inductive Part (B : Type) where
  | head (got : List B)
  | body (head got : List B)
deriving DecidableEq

def Part.bytes {B : Type} : Part B → List B
  | .head got => got
  | .body hd got => hd ++ got

inductive Fed (B F : Type) where
  | more (p : Part B)
  | done (v : Verdict F)

structure Reader (B F : Type) where
  unread : List B := []
  call : Option (Part B) := none
  returned : List F := []
  failed : Bool := false

inductive Act (B : Type) where
  | deliver (bytes : List B)
  | read
  | cancel
  | close

/-- What the call has of the next frame. -/
def Reader.part {B F : Type} (s : Reader B F) : Part B := s.call.getD (.head [])

namespace Framing
variable {B W F : Type} (fr : Framing B W F)

def wire (w : W) : List B := fr.head w ++ fr.body w

def verdict (w : W) : Verdict F :=
  match fr.bodyLen (fr.head w) with
  | none => .fail
  | some _ => fr.finish (fr.head w) (fr.body w)

def value (w : W) : Option F := (fr.verdict w).toOption

/-- The head is complete. -/
def enter (head : List B) : Fed B F :=
  match fr.bodyLen head with
  | none => .done .fail
  | some 0 => .done (fr.finish head [])
  | some (_ + 1) => .more (.body head [])

def feed (p : Part B) (b : B) : Fed B F :=
  match p with
  | .head got =>
    if got.length + 1 < fr.headLen then .more (.head (got ++ [b])) else fr.enter (got ++ [b])
  | .body head got =>
    match fr.bodyLen head with
    | none => .done .fail
    | some n =>
      if got.length + 1 < n then .more (.body head (got ++ [b]))
      else .done (fr.finish head (got ++ [b]))

/-- Bytes arrive, the call reads one, the call is dropped, or the stream breaks. -/
def step (s : Reader B F) : Act B → Option (Reader B F)
  | .deliver bytes => some { s with unread := s.unread ++ bytes }
  | .read =>
    if s.failed then none
    else
      match s.unread with
      | [] => none
      | b :: unread =>
        some (match fr.feed s.part b with
          | .more p => { s with unread, call := some p }
          | .done .skip => { s with unread, call := some (.head []) }
          | .done (.result f) => { s with unread, call := none, returned := s.returned ++ [f] }
          | .done .fail => { s with unread, call := none, failed := true })
  | .cancel => some { s with call := none }
  | .close => some { s with call := none, failed := true }

/-- A call is dropped only when it has read nothing of a frame. -/
def Whole (s : Reader B F) : Act B → Prop
  | .cancel => ∀ p, s.call = some p → p = .head []
  | _ => True

instance [DecidableEq B] (s : Reader B F) (a : Act B) : Decidable (Whole s a) :=
  match a with
  | .cancel => decidable_of_iff (∀ p ∈ s.call, p = .head []) Iff.rfl
  | .deliver _ | .read | .close => .isTrue trivial

def arrives : Act B → List B
  | .deliver bytes => bytes
  | _ => []

/-- The part of a frame that is not complete. -/
def Proper : Part B → Prop
  | .head got => got.length < fr.headLen
  | .body head got => head.length = fr.headLen ∧ ∃ n, fr.bodyLen head = some n ∧ got.length < n

/-- The reader stands at the first of the frames `rest`, of which `future` has not arrived. -/
structure Aligned (s : Reader B F) (future : List B) (rest : List W) : Prop where
  failed : s.failed = false
  proper : fr.Proper s.part
  bytes : s.part.bytes ++ (s.unread ++ future) = rest.flatMap fr.wire

/-- What is returned are the values of the frames in their order, of all of them when all have
been read, and a call fails only on a frame that is to be refused or when the stream breaks. -/
structure Faithful (values : W → Option F) (sent : List W) (as : List (Act B)) (t : Reader B F) :
    Prop where
  returned : t.returned <+: sent.filterMap values
  complete : as.flatMap arrives = sent.flatMap fr.wire → t.unread = [] → t.failed = false →
    t.returned = sent.filterMap values
  failed : t.failed = true → .close ∈ as ∨ ∃ w ∈ sent, fr.verdict w = .fail

variable {fr}

theorem proper_nil : fr.Proper (.head []) := fr.headLen_pos

theorem enter_cases {w : W} :
    (∃ p, fr.enter (fr.head w) = .more p ∧ fr.Proper p ∧ p.bytes = fr.head w) ∨
      (fr.enter (fr.head w) = .done (fr.verdict w) ∧ fr.head w = fr.wire w) ∨
      (fr.enter (fr.head w) = .done .fail ∧ fr.verdict w = .fail) := by
  rw [enter, verdict]
  cases hlen : fr.bodyLen (fr.head w) with
  | none => exact .inr (.inr ⟨rfl, rfl⟩)
  | some n =>
    have hbody := fr.bodyLen_head w n hlen
    cases n with
    | zero =>
      have hnil : fr.body w = [] := List.length_eq_zero_iff.mp hbody.symm
      refine .inr (.inl ⟨?_, ?_⟩)
      · dsimp only
        rw [hnil]
      · rw [wire, hnil, List.append_nil]
    | succ n =>
      exact .inl ⟨_, rfl, ⟨fr.length_head w, n + 1, hlen, Nat.succ_pos n⟩,
        by rw [Part.bytes, List.append_nil]⟩

theorem feed_cases {p : Part B} (hp : fr.Proper p) {b : B} {tail : List B} {rest : List W}
    (h : p.bytes ++ b :: tail = rest.flatMap fr.wire) :
    (∃ p', fr.feed p b = .more p' ∧ fr.Proper p' ∧ p'.bytes = p.bytes ++ [b]) ∨
      ∃ w rest', rest = w :: rest' ∧
        (fr.feed p b = .done (fr.verdict w) ∧ p.bytes ++ [b] = fr.wire w ∨
          fr.feed p b = .done .fail ∧ fr.verdict w = .fail) := by
  obtain _ | ⟨w, rest⟩ := rest
  · simp at h
  rw [List.flatMap_cons, wire, List.append_assoc] at h
  cases p with
  | head got =>
    have hgot : got.length < fr.headLen := hp
    rw [feed]
    split_ifs with hmore
    · exact .inl ⟨_, rfl, by rw [Proper, List.length_append]; exact hmore, rfl⟩
    · have hlen : (got ++ [b]).length = (fr.head w).length := by
        rw [fr.length_head, List.length_append, List.length_singleton]
        omega
      have hhead : got ++ [b] = fr.head w := by
        rw [Part.bytes, List.append_cons] at h
        exact List.append_inj_left h hlen
      rw [hhead]
      rcases @enter_cases _ _ _ fr w with ⟨p', hp', hproper, hbytes⟩ | ⟨hdone, hwire⟩ | hfail
      · exact .inl ⟨p', hp', hproper, hbytes.trans hhead.symm⟩
      · exact .inr ⟨w, rest, rfl, .inl ⟨hdone, hhead.trans hwire⟩⟩
      · exact .inr ⟨w, rest, rfl, .inr hfail⟩
  | body hd got =>
    obtain ⟨hlen, n, hn, hgot⟩ := hp
    rw [Part.bytes, List.append_assoc] at h
    obtain ⟨rfl, hrest⟩ := List.append_inj h (hlen.trans (fr.length_head w).symm)
    have hbody := fr.bodyLen_head w n hn
    simp only [feed, hn]
    split_ifs with hmore
    · refine .inl ⟨_, rfl, ⟨hlen, n, hn, ?_⟩, (List.append_assoc ..).symm⟩
      rwa [List.length_append]
    · have hlen : (got ++ [b]).length = (fr.body w).length := by
        rw [List.length_append, List.length_singleton]
        omega
      have hgot : got ++ [b] = fr.body w := by
        rw [List.append_cons] at hrest
        exact List.append_inj_left hrest hlen
      refine .inr ⟨w, rest, rfl, .inl ⟨?_, ?_⟩⟩
      · rw [hgot, verdict, hn]
      · rw [wire, ← hgot, Part.bytes, List.append_assoc]

theorem aligned_read {s t : Reader B F} {future : List B} {rest : List W}
    (hs : fr.Aligned s future rest) (ht : fr.step s .read = some t) :
    ∃ done rest', rest = done ++ rest' ∧ t.returned = s.returned ++ done.filterMap fr.value ∧
      (fr.Aligned t future rest' ∨ t.failed = true ∧ ∃ w ∈ rest, fr.verdict w = .fail) := by
  obtain ⟨hfailed, hproper, hbytes⟩ := hs
  rw [step, if_neg (by simp [hfailed])] at ht
  cases hun : s.unread with
  | nil => simp [hun] at ht
  | cons b unread =>
    rw [hun] at ht hbytes
    rcases feed_cases hproper hbytes with
      ⟨p, hfeed, hp, hmore⟩ | ⟨w, rest, rfl, ⟨hfeed, hwire⟩ | ⟨hfeed, hfail⟩⟩
    · simp only [hfeed, Option.some.injEq] at ht
      obtain rfl := ht
      refine ⟨[], rest, rfl, (List.append_nil _).symm, .inl ⟨hfailed, hp, ?_⟩⟩
      rw [Reader.part, Option.getD_some, hmore, ← hbytes]
      simp
    · have hnext : ([] : List B) ++ (unread ++ future) = rest.flatMap fr.wire := by
        rw [List.flatMap_cons, ← hwire] at hbytes
        simpa using hbytes
      refine ⟨[w], rest, rfl, ?_⟩
      cases hv : fr.verdict w with
      | skip =>
        simp only [hfeed, hv, Option.some.injEq] at ht
        obtain rfl := ht
        exact ⟨by simp [value, hv, Verdict.toOption], .inl ⟨hfailed, proper_nil, hnext⟩⟩
      | result f =>
        simp only [hfeed, hv, Option.some.injEq] at ht
        obtain rfl := ht
        exact ⟨by simp [value, hv, Verdict.toOption], .inl ⟨hfailed, proper_nil, hnext⟩⟩
      | fail =>
        simp only [hfeed, hv, Option.some.injEq] at ht
        obtain rfl := ht
        exact ⟨by simp [value, hv, Verdict.toOption], .inr ⟨rfl, w, List.mem_cons_self, hv⟩⟩
    · simp only [hfeed, Option.some.injEq] at ht
      obtain rfl := ht
      exact ⟨[], w :: rest, rfl, (List.append_nil _).symm, .inr ⟨rfl, w, List.mem_cons_self, hfail⟩⟩

theorem aligned_step {s t : Reader B F} {a : Act B} {future : List B} {rest : List W}
    (hs : fr.Aligned s (arrives a ++ future) rest) (hw : Whole s a) (ht : fr.step s a = some t) :
    ∃ done rest', rest = done ++ rest' ∧ t.returned = s.returned ++ done.filterMap fr.value ∧
      (fr.Aligned t future rest' ∨
        t.failed = true ∧ (a = .close ∨ ∃ w ∈ rest, fr.verdict w = .fail)) := by
  cases a with
  | read =>
    obtain ⟨done, rest', hrest, hreturned, hnext⟩ := aligned_read hs ht
    exact ⟨done, rest', hrest, hreturned, hnext.imp_right fun h => ⟨h.1, .inr h.2⟩⟩
  | deliver bytes =>
    cases ht
    refine ⟨[], rest, rfl, (List.append_nil _).symm, .inl ⟨hs.failed, hs.proper, ?_⟩⟩
    rw [List.append_assoc]
    exact hs.bytes
  | cancel =>
    cases ht
    have hpart : s.part = .head [] := by
      rw [Reader.part]
      cases hcall : s.call with
      | none => rfl
      | some p => exact hw p hcall
    refine ⟨[], rest, rfl, (List.append_nil _).symm, .inl ⟨hs.failed, proper_nil, ?_⟩⟩
    have hbytes := hs.bytes
    rw [hpart] at hbytes
    exact hbytes
  | close =>
    cases ht
    exact ⟨[], rest, rfl, (List.append_nil _).symm, .inr ⟨rfl, .inl rfl⟩⟩

theorem returned_of_failed {s t : Reader B F} {as : List (Act B)} (hs : s.failed = true)
    (hr : Transition.run fr.step s as = some t) : t.failed = true ∧ t.returned = s.returned := by
  have hstay : ∀ u a u', u.failed = true ∧ u.returned = s.returned → fr.step u a = some u' →
      u'.failed = true ∧ u'.returned = s.returned := by
    intro u a u' hu hstep
    cases a with
    | deliver bytes | cancel =>
      cases hstep
      exact hu
    | close =>
      cases hstep
      exact ⟨rfl, hu.2⟩
    | read => simp [step, hu.1] at hstep
  exact Transition.reachable hstay ⟨hs, rfl⟩ hr

theorem aligned_run {s t : Reader B F} {as : List (Act B)} {missing : List B} {rest : List W}
    (hs : fr.Aligned s (as.flatMap arrives ++ missing) rest)
    (hw : Transition.Meets fr.step Whole s as) (hr : Transition.run fr.step s as = some t) :
    ∃ done rest', rest = done ++ rest' ∧ t.returned = s.returned ++ done.filterMap fr.value ∧
      (fr.Aligned t missing rest' ∨
        t.failed = true ∧ (.close ∈ as ∨ ∃ w ∈ rest, fr.verdict w = .fail)) := by
  induction as generalizing s rest with
  | nil =>
    cases hr
    exact ⟨[], rest, rfl, (List.append_nil _).symm, .inl hs⟩
  | cons a as ih =>
    obtain ⟨u, hu, hrun⟩ := Option.bind_eq_some_iff.mp hr
    rw [List.flatMap_cons, List.append_assoc] at hs
    obtain ⟨done, rest, rfl, hreturned, hu' | ⟨hfailed, hcause⟩⟩ := aligned_step hs hw.1 hu
    · obtain ⟨more, rest, rfl, hmore, hend⟩ := ih hu' (hw.2 u hu) hrun
      refine ⟨done ++ more, rest, (List.append_assoc ..).symm, ?_, hend.imp_right fun h =>
        ⟨h.1, h.2.imp (List.mem_cons_of_mem a) fun ⟨w, hmem, hfail⟩ =>
          ⟨w, List.mem_append_right done hmem, hfail⟩⟩⟩
      rw [hmore, hreturned, List.append_assoc, List.filterMap_append]
    · obtain ⟨hfailed, hsame⟩ := returned_of_failed hfailed hrun
      exact ⟨done, rest, rfl, hsame.trans hreturned, .inr ⟨hfailed,
        hcause.imp_left fun h => List.mem_cons.mpr (.inl h.symm)⟩⟩

theorem eq_nil_of_proper {p : Part B} (hp : fr.Proper p) {rest : List W}
    (h : p.bytes = rest.flatMap fr.wire) : rest = [] := by
  obtain _ | ⟨w, rest⟩ := rest
  · rfl
  rw [List.flatMap_cons, wire, List.append_assoc] at h
  exfalso
  cases p with
  | head got =>
    have hgot : got.length < fr.headLen := hp
    have hlen := congrArg List.length h
    rw [Part.bytes, List.length_append, fr.length_head] at hlen
    omega
  | body hd got =>
    obtain ⟨hlen, n, hn, hgot⟩ := hp
    obtain ⟨rfl, hgot'⟩ := List.append_inj h (hlen.trans (fr.length_head w).symm)
    have hbody := fr.bodyLen_head w n hn
    have hlen := congrArg List.length hgot'
    rw [List.length_append] at hlen
    omega

theorem faithful_of_run {t : Reader B F} {as : List (Act B)} {sent : List W}
    (hsent : as.flatMap arrives <+: sent.flatMap fr.wire)
    (hw : Transition.Meets fr.step Whole {} as) (hr : Transition.run fr.step {} as = some t) :
    fr.Faithful fr.value sent as t := by
  obtain ⟨missing, hmissing⟩ := hsent
  have hstart : fr.Aligned {} (as.flatMap arrives ++ missing) sent := ⟨rfl, proper_nil, hmissing⟩
  obtain ⟨done, rest, rfl, hreturned, hend⟩ := aligned_run hstart hw hr
  rw [List.nil_append] at hreturned
  refine ⟨?_, fun hall hunread hfailed => ?_, fun hfailed => ?_⟩
  · rw [hreturned, List.filterMap_append]
    exact List.prefix_append ..
  · have hend := hend.resolve_right fun h => by simp [hfailed] at h
    have hnone : missing = [] := by
      rw [hall] at hmissing
      simpa using hmissing
    have hbytes := hend.bytes
    rw [hunread, hnone, List.append_nil, List.append_nil] at hbytes
    rw [hreturned, eq_nil_of_proper hend.proper hbytes, List.append_nil]
  · exact (hend.resolve_left fun h => by simp [h.failed] at hfailed).2

end Framing

end FramedReader
