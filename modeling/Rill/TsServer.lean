import Rill.TsFrames

/-!
# The control server of ts2021

`rill-ts2021/src/server/control.rs`: registrations, map requests and map streams run as tasks of
their own, which share the registry behind a lock. A step is one section under the lock, or what a
task does between two of them, so any interleaving of the tasks is a list of steps. A task that
panics ends; if it held the lock then the lock is poisoned, and every task that asks for it later
panics.
-/

namespace Rill
namespace Ts2021

/-- A byte inside a character of more than one byte; a string is not cut in front of it. -/
def isContinuation (b : UInt8) : Bool := 128 ≤ b && b < 192

def hexValue (b : UInt8) : Option UInt8 :=
  if 48 ≤ b ∧ b ≤ 57 then some (b - 48)
  else if 97 ≤ b ∧ b ≤ 102 then some (b - 87)
  else if 65 ≤ b ∧ b ≤ 70 then some (b - 55)
  else none

/-- `u8::from_str_radix` on two characters of one byte; it takes a plus sign. -/
def hexPair (a b : UInt8) : Option UInt8 :=
  if a = 43 then hexValue b
  else do
    let high ← hexValue a
    let low ← hexValue b
    some (high * 16 + low)

/-- The pairs of a text one after the other; `none` is the panic of a cut inside a character. -/
def hexPairs : Bytes → Option (Option Bytes)
  | a :: b :: rest =>
    if rest.head?.any isContinuation then none
    else
      match hexPair a b with
      | none => some none
      | some v => (hexPairs rest).map (Option.map (v :: ·))
  | _ => some (some [])

def toKey32 (key : Bytes) : Option Key32 :=
  if h : key.length = 32 then some ⟨key.toArray, h⟩ else none

/-- `parse_key_hex`; the inner `none` is an error. -/
def parseKeyHex (start text : Text) : Option (Option Key32) :=
  match Text.strip start text with
  | none => some none
  | some digits =>
    if digits.length ≠ 64 then some none else (hexPairs digits).map fun key => key.bind toKey32

theorem isContinuation_eq_false {b : UInt8} (h : b < 128) : isContinuation b = false := by
  have hle : ¬ 128 ≤ b := UInt8.not_le.mpr h
  rw [isContinuation, decide_eq_false hle, Bool.false_and]

theorem hexPairs_isSome {text : Bytes} (h : ∀ b ∈ text, b < 128) : (hexPairs text).isSome := by
  fun_induction hexPairs text with
  | case1 a b rest hcut =>
    cases rest with
    | nil => nomatch hcut
    | cons c rest =>
      rw [List.head?_cons, Option.any_some, isContinuation_eq_false (h c (by simp))] at hcut
      nomatch hcut
  | case2 a b rest hcut hnone => rfl
  | case3 a b rest hcut v hv ih =>
    rw [Option.isSome_map]
    exact ih fun c hc => h c (by simp [hc])
  | case4 => rfl

theorem parseKeyHex_isSome {start text : Text} (h : ∀ b ∈ text, b < 128) :
    (parseKeyHex start text).isSome := by
  rw [parseKeyHex]
  cases hstrip : Text.strip start text with
  | none => rfl
  | some digits =>
    dsimp only
    split_ifs
    · rfl
    · rw [Option.isSome_map]
      refine hexPairs_isSome fun b hb => h b ?_
      rw [Text.strip] at hstrip
      split_ifs at hstrip
      rw [← Option.some.inj hstrip] at hb
      exact List.mem_of_mem_drop hb

structure RegisterRequest where
  nodeKey : Option Text
  authKey : Option Text
  hostname : Option Text

structure MapRequest where
  nodeKey : Option Text
  discoKey : Option Text
  endpoints : List Text
  routableIps : List Text
  preferredDerp : Option UInt16
  stream : Bool
  compress : Bool

/-- The two keys of `parse_map_request`; the inner `none` is a malformed request. -/
def MapRequest.keys (req : MapRequest) : Option (Option (Key32 × Option Key32)) :=
  match req.nodeKey.elim (some none) (parseKeyHex (ascii "nodekey:")) with
  | none => none
  | some none => some none
  | some (some nodeKey) =>
    (req.discoKey.elim (some none) (parseKeyHex (ascii "discokey:"))).map fun discoKey =>
      some (nodeKey, discoKey)

/-- How far a map request has come. -/
inductive MapTask where
  | checked (nid : ℤ) (discoKey : Option Key32) (req : MapRequest)
  | updated (nid : ℤ) (compress : Bool)
  | opened (nid : ℤ) (compress : Bool)
  | live (nid : ℤ) (compress : Bool) (cursor : ℕ)
  | received (nid : ℤ) (compress : Bool) (cursor : ℕ) (event : Event)
  | lagged (nid : ℤ) (compress : Bool) (cursor : ℕ)
  | ended (nid : ℤ)

structure ServerEnv where
  ctx : NetmapCtx
  parseIp : Text → Option IpAddr
  toVec : Json → Bytes

structure Server where
  registry : Registry
  poisoned : Bool := false
  tasks : Table ℕ MapTask := ∅
  nextTask : ℕ := 0

inductive ServerAct where
  | register (machine : Key32) (req : RegisterRequest) (now : UInt64)
  | map (machine : Key32) (req : MapRequest)
  | evict (o : HashOrder ℤ) (hostname : Text)
  | update (task : ℕ) (now : UInt64)
  | refuse (task : ℕ)
  | openStream (task : ℕ) (now : UInt64)
  | subscribe (task : ℕ)
  | recv (task : ℕ)
  | push (task : ℕ) (now : UInt64)
  | keepalive (task : ℕ) (now : UInt64)
  | hangUp (task : ℕ)
  | close (task : ℕ) (now : UInt64)

/-- What a step comes to: the server, and whether a task panicked. -/
structure Outcome where
  panicked : Bool := false
  server : Server

/-- The events a stream that falls behind still finds. -/
def channelCapacity : ℕ := 64

def Registry.peers (r : Registry) (nid : ℤ) : List NodeEntry :=
  r.snapshot.filter fun e => e.nid ≠ nid

namespace Server
variable (s : Server)

def resume (t : ℕ) (task : MapTask) : Outcome :=
  { server := { s with tasks := s.tasks.insert t task } }

def finish (t : ℕ) : Outcome := { server := { s with tasks := s.tasks.erase t } }

def crash (t : ℕ) : Outcome := { panicked := true, server := { s with tasks := s.tasks.erase t } }

def crashLocked (t : ℕ) : Outcome :=
  { panicked := true, server := { s with tasks := s.tasks.erase t, poisoned := true } }

def fault (poisoned : Bool) : Outcome := { panicked := true, server := { s with poisoned } }

def registerNode (machine : Key32) (req : RegisterRequest) (now : UInt64) : Outcome :=
  match req.nodeKey.elim (some none) (parseKeyHex (ascii "nodekey:")) with
  | none => s.fault s.poisoned
  | some none => { server := s }
  | some (some nodeKey) =>
    let hostname := (req.hostname.filter fun h => !h.isEmpty).getD (ascii "unnamed")
    if s.poisoned then s.fault true
    else
      match s.registry.register machine nodeKey hostname (req.authKey.getD []) now with
      | none => s.fault true
      | some (_, registry) => { server := { s with registry } }

/-- `handle_map` up to the end of the check of the node key. -/
def handleMap (machine : Key32) (req : MapRequest) : Outcome :=
  match req.keys with
  | none => s.fault s.poisoned
  | some none => { server := s }
  | some (some (nodeKey, discoKey)) =>
    if s.poisoned then s.fault true
    else
      match (s.registry.nodeByKey nodeKey).filter fun nid =>
          (s.registry.get nid).any fun e => e.machine == machine with
      | none => { server := s }
      | some nid =>
        { server := { s with
            tasks := s.tasks.insert s.nextTask (.checked nid discoKey req)
            nextTask := s.nextTask + 1 } }

def evictNode (o : HashOrder ℤ) (hostname : Text) : Outcome :=
  if s.poisoned then s.fault true
  else { server := { s with registry := (s.registry.evict o hostname).2 } }

variable (env : ServerEnv)

def applyUpdate (t : ℕ) (nid : ℤ) (discoKey : Option Key32) (req : MapRequest) (now : UInt64) :
    Outcome :=
  if s.poisoned then s.crash t
  else
    let registry := s.registry.applyMapUpdate env.parseIp nid discoKey req.endpoints
      req.routableIps req.preferredDerp now
    if req.stream then resume { s with registry } t (.updated nid req.compress)
    else finish { s with registry } t

/-- The start of `serve_long_poll`: the first frame is made under the lock. -/
def sendInitial (t : ℕ) (nid : ℤ) (compress : Bool) (now : UInt64) : Outcome :=
  if s.poisoned then s.crash t
  else
    match s.registry.get nid with
    | none => s.crashLocked t
    | some self =>
      let peers := s.registry.peers nid
      let registry := s.registry.markOnline nid true now
      match (MapFrame.full self peers now).encode env.toVec env.ctx compress with
      | none => crashLocked { s with registry } t
      | some _ => resume { s with registry } t (.opened nid compress)

/-- An event is taken from the channel, or the stream finds that it has missed some. -/
def takeEvent (t : ℕ) (nid : ℤ) (compress : Bool) (cursor : ℕ) :
    Option Outcome :=
  match s.registry.events[cursor]? with
  | none => none
  | some event =>
    let sent := s.registry.events.length
    some (
      if channelCapacity < sent - cursor then
        s.resume t (.lagged nid compress (sent - channelCapacity))
      else
        let changed := event.changed.filter (· ≠ nid)
        if changed.isEmpty && event.removed.isEmpty then
          s.resume t (.live nid compress (cursor + 1))
        else
          s.resume t (.received nid compress (cursor + 1) { event with changed }))

def sendDelta (t : ℕ) (nid : ℤ) (compress : Bool) (cursor : ℕ) (event : Event)
    (now : UInt64) : Outcome :=
  if s.poisoned then s.crash t
  else
    let changed := event.changed.filterMap s.registry.get
    match (MapFrame.delta changed event.removed now).encode env.toVec env.ctx compress with
    | none => s.crash t
    | some _ => s.resume t (.live nid compress cursor)

/-- A stream that has missed events sends all peers again. -/
def sendAgain (t : ℕ) (nid : ℤ) (compress : Bool) (cursor : ℕ) (now : UInt64) : Outcome :=
  if s.poisoned then s.crash t
  else
    match s.registry.get nid with
    | none => s.crashLocked t
    | some self =>
      let peers := s.registry.peers nid
      match (MapFrame.full self peers now).encode env.toVec env.ctx compress with
      | none => s.crash t
      | some _ => s.resume t (.live nid compress cursor)

def endStream (t : ℕ) (nid : ℤ) (now : UInt64) : Outcome :=
  if s.poisoned then s.crash t
  else finish { s with registry := s.registry.markOnline nid false now } t

/-- A step; `none` if the task is not where the step is its next one. -/
def act : ServerAct → Option Outcome
  | .register machine req now => some (s.registerNode machine req now)
  | .map machine req => some (s.handleMap machine req)
  | .evict o hostname => some (s.evictNode o hostname)
  | .update t now =>
    match s.tasks[t]? with
    | some (.checked nid discoKey req) => some (s.applyUpdate env t nid discoKey req now)
    | _ => none
  | .refuse t =>
    match s.tasks[t]? with
    | some (.updated _ _) => some (s.finish t)
    | _ => none
  | .openStream t now =>
    match s.tasks[t]? with
    | some (.updated nid compress) => some (s.sendInitial env t nid compress now)
    | _ => none
  | .subscribe t =>
    match s.tasks[t]? with
    | some (.opened nid compress) =>
      some (if s.poisoned then s.crash t
        else s.resume t (.live nid compress s.registry.events.length))
    | _ => none
  | .recv t =>
    match s.tasks[t]? with
    | some (.live nid compress cursor) => s.takeEvent t nid compress cursor
    | _ => none
  | .push t now =>
    match s.tasks[t]? with
    | some (.received nid compress cursor event) =>
      some (s.sendDelta env t nid compress cursor event now)
    | some (.lagged nid compress cursor) => some (s.sendAgain env t nid compress cursor now)
    | _ => none
  | .keepalive t now =>
    match s.tasks[t]? with
    | some (.live _ compress _) =>
      some (match (MapFrame.keepalive now).encode env.toVec env.ctx compress with
        | none => s.crash t
        | some _ => { server := s })
    | _ => none
  | .hangUp t =>
    match s.tasks[t]? with
    | some (.opened nid _) | some (.live nid _ _) | some (.received nid _ _ _)
    | some (.lagged nid _ _) => some (s.resume t (.ended nid))
    | _ => none
  | .close t now =>
    match s.tasks[t]? with
    | some (.ended nid) => some (s.endStream t nid now)
    | _ => none

end Server

def Server.step (env : ServerEnv) (s : Server) (a : ServerAct) : Option Server :=
  (s.act env a).map Outcome.server

end Ts2021

end Rill
