import Rill.BgpFsm
import Rill.BgpStream

/-!
# What a BGP session is established by

The reader of a connection in front of the state machine. The log keeps what the machine was told,
each message with the frame it was decoded from. The machine is established only after the
connection, then one acceptable OPEN, then a KEEPALIVE. The decoder drops the version of an OPEN,
and nobody looks at it.
-/

namespace Rill.Bgp
open Attempt Incremental

inductive LocalInput where
  | start
  | tcpEstablished
  | tcpClosed
  | holdTimer
  | cease
  | maxPrefix
  deriving DecidableEq

inductive Input where
  | driver (i : LocalInput)
  | message (frame : Bytes) (m : Message)
  deriving DecidableEq

def BgpFsm.input (fsm : BgpFsm) : Input → BgpFsm
  | .driver .start => fsm.start
  | .driver .tcpEstablished => fsm.onTcpEstablished.1
  | .driver .tcpClosed => fsm.onTcpClosed
  | .driver .holdTimer => fsm.onHoldTimer.1
  | .driver .cease => fsm.cease.1
  | .driver .maxPrefix => fsm.notifyMaxPrefix.1
  | .message _ m => (fsm.onMessage m).1

/-- The reader, the machine, and the log of what the machine was told. -/
structure Link where
  reader : FrameReader
  fsm : BgpFsm
  log : List Input

def Link.new (c : LocalConfig) : Link := { reader := {}, fsm := BgpFsm.new c, log := [] }

def Link.tell (link : Link) (i : Input) : Link :=
  { link with fsm := link.fsm.input i, log := link.log ++ [i] }

def framesOf : ℕ → Bytes → List Bytes
  | 0, _ => []
  | n + 1, buf => buf.take (frameLen buf) :: framesOf n (buf.drop (frameLen buf))

inductive LinkEvent where
  | driver (i : LocalInput)
  | recv (data : Bytes)

/-- The messages of a chunk that fails are dropped; a panic ends the link. -/
def Link.step (link : Link) : LinkEvent → Option Link
  | .driver i => some (link.tell (.driver i))
  | .recv data =>
    let (reader, ms, res) := link.reader.feed data
    match res with
    | .panics => none
    | .error _ => some { link with reader }
    | .ok () =>
      some ((((framesOf ms.length (link.reader.buf ++ data)).zip ms).map fun (f, m) =>
        Input.message f m).foldl Link.tell { link with reader })

def Link.run : Link → List LinkEvent → Option Link
  | link, [] => some link
  | link, event :: events => (link.step event).bind fun link => link.run events

/-! ## The order of messages -/

/-- What `on_open` accepts. -/
structure Acceptable (c : LocalConfig) (m : OpenMsg) : Prop where
  hold : m.holdTime = 0 ∨ 3 ≤ m.holdTime
  peer : ∀ expect ∈ c.peerAs4, m.as4 = expect
  bgpId : m.bgpId ≠ 0
  mp : BgpFsm.hasMp m.capabilities = true
  as4 : BgpFsm.hasAs4 m.capabilities = true
  rr : BgpFsm.hasRr m.capabilities = true

/-- The logs that lead to a state of the machine, by its last steps. -/
inductive Admission (c : LocalConfig) : State → UInt16 → List Input → Prop where
  | connected (log : List Input) :
      Admission c .openSent c.holdTime (log ++ [.driver .tcpEstablished])
  | timer {hold : UInt16} {log : List Input} (h : Admission c .openSent hold log) :
      Admission c .openSent hold (log ++ [.driver .holdTimer])
  | opened {hold : UInt16} {log : List Input} (f : Bytes) (m : OpenMsg)
      (h : Admission c .openSent hold log) (hm : Acceptable c m) :
      Admission c .openConfirm (BgpFsm.negotiate c.holdTime m.holdTime)
        (log ++ [.message f (.open m)])
  | confirmed {hold : UInt16} {log : List Input} (f : Bytes)
      (h : Admission c .openConfirm hold log) :
      Admission c .established hold (log ++ [.message f .keepalive])
  | running {hold : UInt16} {log : List Input} (f : Bytes) (m : Message)
      (h : Admission c .established hold log) (hm : ∀ o, m ≠ .open o) :
      Admission c .established hold (log ++ [.message f m])
  | idle (hold : UInt16) (log : List Input) : Admission c .idle hold log
  | connect (hold : UInt16) (log : List Input) : Admission c .connect hold log

theorem admission_onOpen {c : LocalConfig} {fsm : BgpFsm} {log : List Input}
    (hc : fsm.localConfig = c) (h : Admission c fsm.state fsm.negotiatedHold log) (f : Bytes)
    (m : OpenMsg) : Admission c (fsm.onOpen m).1.state (fsm.onOpen m).1.negotiatedHold
      (log ++ [.message f (.open m)]) := by
  subst hc
  unfold BgpFsm.onOpen
  split
  · exact .idle _ _
  rename_i hstate
  split
  · exact .idle _ _
  rename_i hhold
  split
  · exact .idle _ _
  rename_i hpeer
  split
  · exact .idle _ _
  rename_i hid
  split
  · exact .idle _ _
  rename_i hcaps
  rw [not_not] at hstate
  rw [hstate] at h
  simp only [Bool.or_eq_true, Bool.not_eq_true', not_or, Bool.not_eq_false] at hcaps
  refine .opened f m h ⟨?_, ?_, hid, hcaps.1.1, hcaps.1.2, hcaps.2⟩
  · by_cases hzero : m.holdTime = 0
    · exact Or.inl hzero
    · refine Or.inr (UInt16.not_lt.mp fun hlt => hhold ⟨?_, hlt⟩)
      exact UInt16.pos_iff_ne_zero.mpr hzero
  · intro expect hexpect
    rw [Option.mem_def.mp hexpect] at hpeer
    simpa using hpeer

theorem admission_input {c : LocalConfig} {fsm : BgpFsm} {log : List Input}
    (hc : fsm.localConfig = c) (h : Admission c fsm.state fsm.negotiatedHold log) (i : Input) :
    Admission c (fsm.input i).state (fsm.input i).negotiatedHold (log ++ [i]) := by
  obtain ⟨state, localConfig, hold⟩ := fsm
  subst hc
  cases i with
  | driver i =>
    cases i with
    | start => exact .connect _ _
    | tcpEstablished =>
      cases state with
      | idle => exact .connected _
      | connect => exact .connected _
      | openSent => exact .idle _ _
      | openConfirm => exact .idle _ _
      | established => exact .idle _ _
    | tcpClosed => exact .idle _ _
    | holdTimer =>
      cases state with
      | idle => exact .idle _ _
      | connect => exact .connect _ _
      | openSent => exact .timer h
      | openConfirm => exact .idle _ _
      | established => exact .idle _ _
    | cease => exact .idle _ _
    | maxPrefix => exact .idle _ _
  | message f m =>
    have hlegal : (∀ o, m ≠ .open o) → Admission localConfig
        (BgpFsm.whenEstablished ⟨state, localConfig, hold⟩).1.state
        (BgpFsm.whenEstablished ⟨state, localConfig, hold⟩).1.negotiatedHold
        (log ++ [.message f m]) := by
      intro hm
      unfold BgpFsm.whenEstablished
      split
      · rename_i hstate
        obtain rfl : state = .established := hstate
        exact .running f m h hm
      · exact .idle _ _
    cases m with
    | «open» m => exact admission_onOpen rfl h f m
    | update m => exact hlegal fun _ => nofun
    | routeRefresh m => exact hlegal fun _ => nofun
    | notification m => exact .idle _ _
    | keepalive =>
      cases state with
      | idle => exact .idle _ _
      | connect => exact .idle _ _
      | openSent => exact .idle _ _
      | openConfirm => exact .confirmed f h
      | established => exact .running f _ h fun _ => nofun

@[simp] theorem BgpFsm.localConfig_input (fsm : BgpFsm) (i : Input) :
    (fsm.input i).localConfig = fsm.localConfig := by
  cases i with
  | driver i =>
    cases i with
    | start => rfl
    | tcpEstablished => simp only [input, onTcpEstablished]; split <;> rfl
    | tcpClosed => rfl
    | holdTimer => simp only [input, onHoldTimer]; split <;> rfl
    | cease => rfl
    | maxPrefix => rfl
  | message f m =>
    have hlegal : fsm.whenEstablished.1.localConfig = fsm.localConfig := by
      unfold whenEstablished
      split <;> rfl
    cases m with
    | «open» m => simp only [input, onMessage, onOpen]; split_ifs <;> rfl
    | update m => exact hlegal
    | routeRefresh m => exact hlegal
    | notification m => rfl
    | keepalive => simp only [input, onMessage, onKeepalive]; split <;> rfl

/-! ## Runs -/

/-- The log leads to the state of the machine, and its messages are decoded from their frames. -/
structure Link.Inv (c : LocalConfig) (link : Link) : Prop where
  config : link.fsm.localConfig = c
  admission : Admission c link.fsm.state link.fsm.negotiatedHold link.log
  decoded : ∀ f m, Input.message f m ∈ link.log → decode f = .ok m

theorem Link.inv_new (c : LocalConfig) : (Link.new c).Inv c where
  config := rfl
  admission := .idle _ _
  decoded := fun _ _ h => nomatch h

theorem Link.Inv.tell {c : LocalConfig} {link : Link} (h : link.Inv c) {i : Input}
    (hi : ∀ f m, i = .message f m → decode f = .ok m) : (link.tell i).Inv c where
  config := (BgpFsm.localConfig_input _ _).trans h.config
  admission := admission_input h.config h.admission i
  decoded := by
    intro f m hmem
    rcases List.mem_append.mp hmem with hmem | hmem
    · exact h.decoded f m hmem
    · exact hi f m (List.mem_singleton.mp hmem).symm

theorem Link.Inv.foldl_tell {c : LocalConfig} {link : Link} (h : link.Inv c) {is : List Input}
    (his : ∀ i ∈ is, ∀ f m, i = .message f m → decode f = .ok m) :
    (is.foldl Link.tell link).Inv c := by
  induction is generalizing link with
  | nil => exact h
  | cons i is ih =>
    obtain ⟨hi, his⟩ := List.forall_mem_cons.mp his
    exact ih (h.tell hi) his

theorem decode_framesOf (buf : Bytes) :
    ∀ fm ∈ (framesOf (drain nextFrame buf).items.length buf).zip (drain nextFrame buf).items,
      decode fm.1 = .ok fm.2 := by
  induction buf using drain_induction stable_nextFrame with
  | wait buf hnext =>
    rw [drain_of_wait hnext]
    exact fun _ h => nomatch h
  | error buf e hnext =>
    rw [drain_of_error hnext]
    exact fun _ h => nomatch h
  | panics buf hnext =>
    rw [drain_of_panics hnext]
    exact fun _ h => nomatch h
  | item buf m rest hnext ih =>
    obtain ⟨hdecode, rfl, -⟩ := nextFrame_eq_item hnext
    rw [drain_of_item stable_nextFrame hnext]
    exact List.forall_mem_cons.mpr ⟨hdecode, ih⟩

theorem Link.Inv.step {c : LocalConfig} {link link' : Link} (h : link.Inv c) {event : LinkEvent}
    (hstep : link.step event = some link') : link'.Inv c := by
  cases event with
  | driver i =>
    cases hstep
    exact h.tell fun _ _ => nofun
  | recv data =>
    have hframes := decode_framesOf (link.reader.buf ++ data)
    have hreader : ∀ reader : FrameReader, ({ link with reader } : Link).Inv c :=
      fun _ => ⟨h.config, h.admission, h.decoded⟩
    simp only [Link.step, FrameReader.feed] at hstep
    split at hstep
    · cases hstep
    · cases hstep
      exact hreader _
    · cases hstep
      refine (hreader _).foldl_tell ?_
      intro i hi f m heq
      subst heq
      obtain ⟨fm, hmem, heq⟩ := List.mem_map.mp hi
      cases heq
      exact hframes _ hmem

theorem Link.Inv.run {c : LocalConfig} {link link' : Link} (h : link.Inv c)
    {events : List LinkEvent} (hrun : link.run events = some link') : link'.Inv c := by
  induction events generalizing link with
  | nil =>
    cases hrun
    exact h
  | cons event events ih =>
    obtain ⟨next, hstep, hrun⟩ := Option.bind_eq_some_iff.mp hrun
    exact ih (h.step hstep) hrun

/-! ## An established session -/

theorem Admission.openSent_log {c : LocalConfig} {hold : UInt16} {log : List Input}
    (h : Admission c .openSent hold log) : ∃ pre timers,
      log = pre ++ .driver .tcpEstablished :: timers ∧ ∀ i ∈ timers, i = .driver .holdTimer := by
  generalize hs : State.openSent = s at h
  induction h with
  | connected log => exact ⟨log, [], rfl, fun _ h => nomatch h⟩
  | timer _ ih =>
    obtain ⟨pre, timers, rfl, htimers⟩ := ih hs
    refine ⟨pre, timers ++ [.driver .holdTimer], by simp, ?_⟩
    intro i hi
    rcases List.mem_append.mp hi with hi | hi
    · exact htimers i hi
    · exact List.mem_singleton.mp hi
  | opened => nomatch hs
  | confirmed => nomatch hs
  | running => nomatch hs
  | idle => nomatch hs
  | connect => nomatch hs

theorem Admission.established_log {c : LocalConfig} {hold : UInt16} {log : List Input}
    (h : Admission c .established hold log) : ∃ pre timers f m g later,
      log = pre ++ .driver .tcpEstablished ::
        (timers ++ .message f (.open m) :: .message g .keepalive :: later) ∧
      (∀ i ∈ timers, i = .driver .holdTimer) ∧
      (∀ i ∈ later, ∃ f' m', i = .message f' m' ∧ ∀ o, m' ≠ .open o) ∧
      Acceptable c m ∧ hold = BgpFsm.negotiate c.holdTime m.holdTime := by
  generalize hs : State.established = s at h
  induction h with
  | connected => nomatch hs
  | timer => nomatch hs
  | opened => nomatch hs
  | confirmed g h =>
    cases h with
    | opened f m h hm =>
      obtain ⟨pre, timers, rfl, htimers⟩ := h.openSent_log
      exact ⟨pre, timers, f, m, g, [], by simp, htimers, fun _ h => (nomatch h), hm, rfl⟩
  | running g m' _ hm' ih =>
    obtain ⟨pre, timers, f, m, g', later, rfl, htimers, hlater, hm, hhold⟩ := ih hs
    refine ⟨pre, timers, f, m, g', later ++ [.message g m'], by simp, htimers, ?_, hm, hhold⟩
    intro i hi
    rcases List.mem_append.mp hi with hi | hi
    · exact hlater i hi
    · exact ⟨g, m', List.mem_singleton.mp hi, hm'⟩
  | idle => nomatch hs
  | connect => nomatch hs

theorem mpBgp_mem_of_hasMp {caps : List Capability} (h : BgpFsm.hasMp caps = true) :
    ∃ afi, (afi = 1 ∨ afi = 2) ∧ .mpBgp afi 1 ∈ caps := by
  obtain ⟨cap, hcap, hmp⟩ := List.any_eq_true.mp h
  cases cap with
  | mpBgp afi safi =>
    simp only [Bool.and_eq_true, Bool.or_eq_true, beq_iff_eq] at hmp
    obtain ⟨rfl, hafi⟩ := hmp
    exact ⟨afi, hafi, hcap⟩
  | routeRefresh => nomatch hmp
  | fourOctetAs asn => nomatch hmp

theorem fourOctetAs_mem_of_hasAs4 {caps : List Capability} (h : BgpFsm.hasAs4 caps = true) :
    ∃ asn, .fourOctetAs asn ∈ caps := by
  obtain ⟨cap, hcap, has4⟩ := List.any_eq_true.mp h
  cases cap with
  | mpBgp afi safi => nomatch has4
  | routeRefresh => nomatch has4
  | fourOctetAs asn => exact ⟨asn, hcap⟩

theorem routeRefresh_mem_of_hasRr {caps : List Capability} (h : BgpFsm.hasRr caps = true) :
    .routeRefresh ∈ caps := by
  obtain ⟨cap, hcap, hrr⟩ := List.any_eq_true.mp h
  cases cap with
  | mpBgp afi safi => nomatch hrr
  | routeRefresh => exact hcap
  | fourOctetAs asn => nomatch hrr

theorem three_le_min {mine theirs : UInt16} (hmine : mine ≠ 0) (h1 : mine ≠ 1) (h2 : mine ≠ 2)
    (htheirs : 3 ≤ theirs) : 3 ≤ min mine theirs := by
  change 3 ≤ (if mine ≤ theirs then mine else theirs)
  split
  swap
  · exact htheirs
  rw [UInt16.le_iff_toNat_le]
  have h0 : mine.toNat ≠ 0 := fun h => hmine (UInt16.toNat_inj.mp h)
  have h1 : mine.toNat ≠ 1 := fun h => h1 (UInt16.toNat_inj.mp h)
  have h2 : mine.toNat ≠ 2 := fun h => h2 (UInt16.toNat_inj.mp h)
  show 3 ≤ mine.toNat
  omega

/-- A session is established only after the connection, then one acceptable OPEN of version 4, then
a KEEPALIVE, if the peer sends no OPEN of another version, and none with a hold time if the
configured one is one or two seconds. -/
theorem established_after_open {c : LocalConfig} {events : List LinkEvent} {link : Link}
    (hrun : (Link.new c).run events = some link) (hestablished : link.fsm.state = .established)
    (hversion : ∀ f m, Input.message f (.open m) ∈ link.log → f.getD 19 0 = version)
    (hhold : ∀ f m, Input.message f (.open m) ∈ link.log → m.holdTime ≠ 0 →
      c.holdTime ≠ 1 ∧ c.holdTime ≠ 2) :
    ∃ pre timers f m g later,
      link.log = pre ++ .driver .tcpEstablished ::
        (timers ++ .message f (.open m) :: .message g .keepalive :: later) ∧
      (∀ i ∈ timers, i = .driver .holdTimer) ∧
      (∀ i ∈ later, ∃ f' m', i = .message f' m' ∧ ∀ o, m' ≠ .open o) ∧
      decode f = .ok (.open m) ∧ f.getD 19 0 = 4 ∧ decode g = .ok .keepalive ∧
      (∀ expect ∈ c.peerAs4, m.as4 = expect) ∧ m.bgpId ≠ 0 ∧
      (∃ afi, (afi = 1 ∨ afi = 2) ∧ .mpBgp afi 1 ∈ m.capabilities) ∧
      (∃ asn, .fourOctetAs asn ∈ m.capabilities) ∧ .routeRefresh ∈ m.capabilities ∧
      if c.holdTime = 0 ∨ m.holdTime = 0 then link.fsm.negotiatedHold = 0
      else link.fsm.negotiatedHold = min c.holdTime m.holdTime ∧ 3 ≤ link.fsm.negotiatedHold := by
  have hinv := (Link.inv_new c).run hrun
  have hadmission := hinv.admission
  rw [hestablished] at hadmission
  obtain ⟨pre, timers, f, m, g, later, hlog, htimers, hlater, hm, hneg⟩ :=
    hadmission.established_log
  have hmem : Input.message f (.open m) ∈ link.log := by simp [hlog]
  have hgmem : Input.message g .keepalive ∈ link.log := by simp [hlog]
  refine ⟨pre, timers, f, m, g, later, hlog, htimers, hlater, hinv.decoded f _ hmem,
    hversion f m hmem, hinv.decoded g _ hgmem, hm.peer, hm.bgpId, ?_, ?_, ?_, ?_⟩
  · exact mpBgp_mem_of_hasMp hm.mp
  · exact fourOctetAs_mem_of_hasAs4 hm.as4
  · exact routeRefresh_mem_of_hasRr hm.rr
  · rw [BgpFsm.negotiate] at hneg
    split
    · rename_i hzero
      rw [hneg, if_pos hzero]
    · rename_i hzero
      rw [if_neg hzero] at hneg
      rw [not_or] at hzero
      obtain ⟨hone, htwo⟩ := hhold f m hmem hzero.2
      exact ⟨hneg, hneg ▸ three_le_min hzero.1 hone htwo (hm.hold.resolve_left hzero.2)⟩

/-- A configuration that takes any peer. -/
def labLocal (holdTime : UInt16) : LocalConfig :=
  { as4 := 64512, bgpId := 0x0a000001#32, holdTime, peerAs4 := none }

def peerOpen (ver : UInt8) (holdTime : UInt16) : Bytes :=
  frame typeOpen (ver :: (u16be 64513 ++ u16be holdTime ++ [10, 0, 0, 2] ++
    [18, 2, 16, 1, 4, 0, 1, 0, 1, 2, 0, 65, 4, 0, 0, 0xfc, 1, 2, 0]))

def peerEvents (ver : UInt8) (holdTime : UInt16) : List LinkEvent :=
  [.driver .tcpEstablished, .recv (peerOpen ver holdTime), .recv (frame typeKeepalive [])]

/-- The session is established with a hold time, and the OPENs in the log are of one version. -/
def establishedWith (hold : UInt16) (ver : UInt8) (link : Link) : Bool :=
  link.fsm.state = .established && link.fsm.negotiatedHold == hold && link.log.all fun i =>
    match i with
    | .message f (.open _) => f.getD 19 0 == ver
    | _ => true

theorem version_four_admitted : ∃ link, (Link.new (labLocal 90)).run (peerEvents 4 90) = some link ∧
    ∃ f m, Input.message f (.open m) ∈ link.log ∧ decode f = .ok (.open m) ∧ f.getD 19 0 = 4 := by
  have hrun : ((Link.new (labLocal 90)).run (peerEvents 4 90)).any (establishedWith 90 4) =
      true := by
    decide
  obtain ⟨link, hlink, hwith⟩ := (Option.any_eq_true _ _).mp hrun
  simp only [establishedWith, Bool.and_eq_true, decide_eq_true_eq, List.all_eq_true] at hwith
  obtain ⟨⟨hestablished, -⟩, hall⟩ := hwith
  obtain ⟨pre, timers, f, m, g, later, hlog, -, -, hdecode, hversion, -⟩ :=
    established_after_open hlink hestablished (fun f m hmem => beq_iff_eq.mp (hall _ hmem))
      fun _ _ _ _ => by decide
  exact ⟨link, hlink, f, m, by simp [hlog], hdecode, hversion⟩

/-- A peer that offers version 3 is admitted; so is a hold time of one second that is configured. -/
theorem version_three_admitted :
    ((Link.new (labLocal 90)).run (peerEvents 3 90)).any (establishedWith 90 3) = true ∧
    ((Link.new (labLocal 1)).run (peerEvents 4 90)).any (establishedWith 1 4) = true := by
  decide

end Rill.Bgp
