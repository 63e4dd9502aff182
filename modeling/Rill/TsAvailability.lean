import Rill.TsServerSteps

/-!
# Availability of the ts2021 server

A handler or stream panics on a key text that it cuts inside a character, on a compressed frame that
does not fit its block, and when the node of its stream has been evicted. The last happens with the
lock, and so does the second for the first frame of a stream: then the registry is lost to all.

A stream that opens marks its node online, and one that ends marks it offline, whether or not the
node has another one.
-/

namespace Rill
namespace Ts2021

def PlainText (text : Option Text) : Prop := ∀ t ∈ text, ∀ b ∈ t, b < 128

/-- The condition on a step under which it does not panic. -/
def Server.Careful (env : ServerEnv) (s : Server) : ServerAct → Prop
  | .register _ req _ => PlainText req.nodeKey ∧ s.registry.nextId < 2 ^ 63 - 2
  | .map _ req => PlainText req.nodeKey ∧ PlainText req.discoKey
  | .evict _ hostname => ∀ (t : ℕ) (task : MapTask), s.tasks[t]? = some task →
      ∀ e, s.registry.nodes[task.nid]? = some e → e.hostname ≠ hostname
  | .openStream t now => ∀ nid compress, s.tasks[t]? = some (.updated nid compress) →
      ∀ self, s.registry.nodes[nid]? = some self →
        (MapFrame.full self (s.registry.peers nid) now).Fits env.toVec env.ctx compress
  | .push t now =>
      (∀ nid compress cursor event,
        s.tasks[t]? = some (.received nid compress cursor event) →
          (MapFrame.delta (event.changed.filterMap s.registry.get) event.removed now).Fits
            env.toVec env.ctx compress) ∧
      ∀ nid compress cursor, s.tasks[t]? = some (.lagged nid compress cursor) →
        ∀ self, s.registry.nodes[nid]? = some self →
          (MapFrame.full self (s.registry.peers nid) now).Fits env.toVec env.ctx compress
  | .keepalive t now => ∀ nid compress cursor,
      s.tasks[t]? = some (.live nid compress cursor) →
        (MapFrame.keepalive now).Fits env.toVec env.ctx compress
  | _ => True

theorem elim_parseKeyHex_isSome {start : Text} {text : Option Text} (h : PlainText text) :
    (text.elim (some none) (parseKeyHex start)).isSome := by
  cases text with
  | none => rfl
  | some t => exact parseKeyHex_isSome (h t rfl)

theorem keys_isSome {req : MapRequest} (hnode : PlainText req.nodeKey)
    (hdisco : PlainText req.discoKey) : req.keys.isSome := by
  rw [MapRequest.keys]
  split
  · rename_i hnone
    have hsome : (req.nodeKey.elim (some none) (parseKeyHex (ascii "nodekey:"))).isSome :=
      elim_parseKeyHex_isSome hnode
    rw [hnone] at hsome
    nomatch hsome
  · rfl
  · rw [Option.isSome_map]
    exact elim_parseKeyHex_isSome hdisco

namespace Registry
variable {r r' : Registry} {nid : ℤ} {parseIp : Text → Option IpAddr}

theorem isSome_insert {t : Table ℤ NodeEntry} (h : (t[nid]?).isSome) (k : ℤ) (e : NodeEntry) :
    ((t.insert k e)[nid]?).isSome := by
  rw [Table.getElem?_insert]
  split_ifs
  · rfl
  · exact h

theorem isSome_step (hids : ∀ (k : ℤ) (e : NodeEntry), r.nodes[k]? = some e → e.nid = k)
    {call : RegistryCall} (hstep : r.step parseIp call = some r') (h : (r.nodes[nid]?).isSome) :
    (r'.nodes[nid]?).isSome ∨ ∃ o hostname e, call = .evict o hostname ∧
      r.nodes[nid]? = some e ∧ NodeEntry.hostname e = hostname := by
  cases call with
  | register machine nodeKey hostname authKey now =>
    obtain ⟨answer, hregister, rfl⟩ := Option.map_eq_some_iff.mp hstep
    refine .inl ?_
    rw [register] at hregister
    split at hregister
    · cases hregister
      exact h
    · split_ifs at hregister
      · cases hregister
        exact h
      · split at hregister
        · obtain ⟨e, -, rfl⟩ := Option.map_eq_some_iff.mp hregister
          exact isSome_insert h _ _
        · cases hregister
          exact isSome_insert h _ _
  | applyMapUpdate k discoKey endpoints routableIps preferredDerp now =>
    cases hstep
    refine .inl ?_
    rw [applyMapUpdate]
    cases r.nodes[k]? with
    | none => exact h
    | some e =>
      rw [Option.elim_some]
      dsimp only
      split_ifs <;> exact isSome_insert h _ _
  | markOnline k online now =>
    cases hstep
    refine .inl ?_
    rw [markOnline]
    cases r.nodes[k]? with
    | none => exact h
    | some e =>
      rw [Option.elim_some]
      split_ifs
      · exact isSome_insert h _ _
      · exact h
  | evict o hostname =>
    cases hstep
    rw [evict]
    split
    · exact .inl h
    · rename_i k hfound
      split
      · exact .inl h
      · rename_i e he
        by_cases hk : k = nid
        · subst hk
          refine .inr ⟨o, hostname, e, rfl, he, ?_⟩
          obtain ⟨e', hfind, hnid⟩ := Option.map_eq_some_iff.mp hfound
          obtain ⟨k', he'⟩ := HashOrder.mem_values.mp (List.mem_of_find?_eq_some hfind)
          obtain rfl : k' = k := (hids k' e' he').symm.trans hnid
          cases he.symm.trans he'
          have hname := List.find?_some hfind
          exact beq_iff_eq.mp hname
        · refine .inl ?_
          rw [send, Table.getElem?_erase_of_ne hk]
          exact h

end Registry

namespace Server
variable {env : ServerEnv} {s : Server} {a : ServerAct} {out : Outcome}

/-- The lock is whole, the registry is in order and every task is for a node of it. -/
structure Steady (s : Server) : Prop where
  whole : s.poisoned = false
  sound : ∃ k < 2 ^ 63 - 2, s.registry.Sound k
  tasks : ∀ (t : ℕ) (task : MapTask), s.tasks[t]? = some task →
    (s.registry.nodes[task.nid]?).isSome

/-- No task panicked and the lock is whole. -/
def Outcome.Calm (out : Outcome) : Prop := out.panicked = false ∧ out.server.poisoned = false

theorem Steady.calm_register (h : s.Steady) (machine : Key32) {req : RegisterRequest}
    (hplain : PlainText req.nodeKey) (now : UInt64) :
    Outcome.Calm (s.registerNode machine req now) := by
  rw [registerNode]
  split
  · rename_i hnone
    have hsome : (req.nodeKey.elim (some none) (parseKeyHex (ascii "nodekey:"))).isSome :=
      elim_parseKeyHex_isSome hplain
    rw [hnone] at hsome
    cases hsome
  · exact ⟨rfl, h.whole⟩
  · dsimp only
    rw [h.whole, if_neg Bool.false_ne_true]
    split
    · rename_i nodeKey _ _ hnone
      obtain ⟨k, -, hsound⟩ := h.sound
      obtain ⟨answer, hanswer⟩ := hsound.register_isSome machine nodeKey _ _ now
      cases hnone.symm.trans hanswer
    · exact ⟨rfl, rfl⟩

theorem Steady.calm_map (h : s.Steady) (machine : Key32) {req : MapRequest}
    (hnode : PlainText req.nodeKey) (hdisco : PlainText req.discoKey) :
    Outcome.Calm (s.handleMap machine req) := by
  rw [handleMap]
  split
  · rename_i hnone
    have hsome := keys_isSome hnode hdisco
    rw [hnone] at hsome
    cases hsome
  · exact ⟨rfl, h.whole⟩
  · rw [h.whole, if_neg Bool.false_ne_true]
    split
    · exact ⟨rfl, h.whole⟩
    · exact ⟨rfl, rfl⟩

theorem encode_of_fits {f : MapFrame} {compress : Bool} (h : f.Fits env.toVec env.ctx compress) :
    ∃ bytes, f.encode env.toVec env.ctx compress = some bytes :=
  Option.isSome_iff_exists.mp (MapFrame.encode_isSome_iff.mpr h)

theorem Steady.calm_open (h : s.Steady) {t : ℕ} {nid : ℤ} {compress : Bool} {now : UInt64}
    (htask : s.tasks[t]? = some (.updated nid compress))
    (hfits : ∀ self, s.registry.nodes[nid]? = some self →
      (MapFrame.full self (s.registry.peers nid) now).Fits env.toVec env.ctx compress) :
    Outcome.Calm (s.sendInitial env t nid compress now) := by
  obtain ⟨self, hself⟩ := Option.isSome_iff_exists.mp (h.tasks t _ htask)
  obtain ⟨bytes, hbytes⟩ := encode_of_fits (hfits self hself)
  have hget : s.registry.get nid = some self := hself
  simp only [sendInitial, h.whole, hget, hbytes]
  exact ⟨rfl, rfl⟩

theorem Steady.calm_again (h : s.Steady) {t : ℕ} {nid : ℤ} {compress : Bool}
    {cursor : ℕ} {now : UInt64} (htask : s.tasks[t]? = some (.lagged nid compress cursor))
    (hfits : ∀ self, s.registry.nodes[nid]? = some self →
      (MapFrame.full self (s.registry.peers nid) now).Fits env.toVec env.ctx compress) :
    Outcome.Calm (s.sendAgain env t nid compress cursor now) := by
  obtain ⟨self, hself⟩ := Option.isSome_iff_exists.mp (h.tasks t _ htask)
  obtain ⟨bytes, hbytes⟩ := encode_of_fits (hfits self hself)
  have hget : s.registry.get nid = some self := hself
  simp only [sendAgain, h.whole, hget, hbytes]
  exact ⟨rfl, h.whole⟩

theorem Steady.calm (h : s.Steady) (hcareful : s.Careful env a) (hact : s.act env a = some out) :
    Outcome.Calm out := by
  cases a with
  | register machine req now =>
    cases hact
    exact h.calm_register machine hcareful.1 now
  | map machine req =>
    cases hact
    exact h.calm_map machine hcareful.1 hcareful.2
  | evict o hostname =>
    cases hact
    rw [evictNode, h.whole]
    exact ⟨rfl, rfl⟩
  | update t now =>
    rw [act] at hact
    split at hact
    · cases hact
      rw [applyUpdate, h.whole, if_neg Bool.false_ne_true]
      dsimp only
      split_ifs <;> exact ⟨rfl, rfl⟩
    · cases hact
  | openStream t now =>
    rw [act] at hact
    split at hact
    · rename_i htask
      cases hact
      exact h.calm_open htask (hcareful _ _ htask)
    · cases hact
  | close t now =>
    rw [act] at hact
    split at hact
    · cases hact
      rw [endStream, h.whole]
      exact ⟨rfl, rfl⟩
    · cases hact
  | refuse t =>
    rw [act] at hact
    split at hact
    · cases hact
      exact ⟨rfl, h.whole⟩
    · cases hact
  | subscribe t =>
    rw [act] at hact
    split at hact
    · cases hact
      rw [h.whole]
      exact ⟨rfl, h.whole⟩
    · cases hact
  | recv t =>
    rw [act] at hact
    split at hact
    · rw [takeEvent] at hact
      split at hact
      · cases hact
      · cases hact
        dsimp only
        split_ifs <;> exact ⟨rfl, h.whole⟩
    · cases hact
  | push t now =>
    rw [act] at hact
    split at hact
    · rename_i htask
      cases hact
      obtain ⟨bytes, hbytes⟩ := encode_of_fits (hcareful.1 _ _ _ _ htask)
      simp only [sendDelta, h.whole, hbytes]
      exact ⟨rfl, h.whole⟩
    · rename_i htask
      cases hact
      exact h.calm_again htask (hcareful.2 _ _ _ htask)
    · cases hact
  | keepalive t now =>
    rw [act] at hact
    split at hact
    · rename_i htask
      cases hact
      obtain ⟨bytes, hbytes⟩ := encode_of_fits (hcareful _ _ _ htask)
      rw [hbytes]
      exact ⟨rfl, h.whole⟩
    · cases hact
  | hangUp t =>
    rw [act] at hact
    split at hact <;> first
      | cases hact
        exact ⟨rfl, h.whole⟩
      | cases hact

theorem Calls.careful {call : RegistryCall} (hcall : s.Calls a call) (hcareful : s.Careful env a) :
    (s.registry.admits call = true → s.registry.nextId < 2 ^ 63 - 2) ∧
      ∀ o hostname, call = .evict o hostname → ∀ (t : ℕ) (task : MapTask),
        s.tasks[t]? = some task → ∀ e, s.registry.nodes[task.nid]? = some e →
          e.hostname ≠ hostname := by
  cases hcall with
  | register machine req now nodeKey hostname authKey =>
    exact ⟨fun _ => hcareful.2, fun _ _ h => nomatch h⟩
  | evict o hostname =>
    refine ⟨(nomatch ·), ?_⟩
    intro o' hostname' h
    obtain ⟨-, rfl⟩ := RegistryCall.evict.inj h
    exact hcareful
  | update now htask => exact ⟨(nomatch ·), fun _ _ h => nomatch h⟩
  | openStream now htask => exact ⟨(nomatch ·), fun _ _ h => nomatch h⟩
  | close now htask => exact ⟨(nomatch ·), fun _ _ h => nomatch h⟩

theorem Steady.act (h : s.Steady) (hcareful : s.Careful env a) (hact : s.act env a = some out) :
    out.server.Steady := by
  obtain ⟨k, hk, hsound⟩ := h.sound
  refine ⟨(h.calm hcareful hact).2, ?_, ?_⟩
  · rcases moved_of_act hact with hsame | ⟨call, hcall, hstep⟩
    · exact ⟨k, hk, hsame ▸ hsound⟩
    · have hchange := Registry.change_of_step hstep
      have hroom : k + (s.registry.admits call).toNat < 2 ^ 63 - 2 := by
        cases hadmits : s.registry.admits call with
        | false => exact hk
        | true =>
          have hnext := (hcall.careful hcareful).1 hadmits
          rw [hsound.nextId] at hnext
          rw [Bool.toNat_true]
          omega
      exact ⟨_, hroom, hsound.change hchange (by omega)⟩
  · have hkept : ∀ (t : ℕ) (task : MapTask), s.tasks[t]? = some task →
        (out.server.registry.nodes[task.nid]?).isSome := by
      intro t task htask
      have hold := h.tasks t task htask
      rcases moved_of_act hact with hsame | ⟨call, hcall, hstep⟩
      · rw [hsame]
        exact hold
      · have hids := fun k e he => (hsound.numbered k e he).1
        rcases Registry.isSome_step hids hstep hold with hnew | ⟨o, hostname, e, hevict, he, hname⟩
        · exact hnew
        · exact absurd hname ((hcall.careful hcareful).2 o hostname hevict t task htask e he)
    refine (tasks_of_act hact).forall_task hkept ?_ fun _ _ _ hnid => hnid
    intro t task next htask hnext
    rw [hnext]
    exact hkept t task htask

theorem steady_new (authKeys : List Text) (whitelist : RoutesWhitelist) :
    Steady { registry := .new authKeys whitelist } where
  whole := rfl
  sound := ⟨0, by decide, Registry.sound_new authKeys whitelist⟩
  tasks := fun t _ htask => nomatch (Std.ExtTreeMap.getElem?_empty (a := t)).symm.trans htask

/-- A step in which no task panics. -/
def PanicFree (env : ServerEnv) (s : Server) (a : ServerAct) : Prop :=
  s.poisoned = false ∧ ∀ out, s.act env a = some out → out.panicked = false ∧
    out.server.poisoned = false

theorem Steady.step {s' : Server} (h : s.Steady) (hcareful : s.Careful env a)
    (hstep : s.step env a = some s') : s'.Steady := by
  obtain ⟨out, hact, rfl⟩ := Option.map_eq_some_iff.mp hstep
  exact h.act hcareful hact

/-- In every run of the server whose steps are careful no handler and no stream panics, and the lock
is never poisoned. -/
theorem no_panic_of_careful (env : ServerEnv) (authKeys : List Text) (whitelist : RoutesWhitelist)
    (acts : List ServerAct)
    (hcareful : Transition.Meets (step env) (Careful env) { registry := .new authKeys whitelist }
      acts) :
    Transition.Meets (step env) (PanicFree env) { registry := .new authKeys whitelist } acts ∧
      ∀ s, Transition.run (step env) { registry := .new authKeys whitelist } acts = some s →
        s.poisoned = false := by
  have hstep : ∀ s a s', Steady s → Careful env s a → step env s a = some s' → Steady s' :=
    fun _ _ _ h hcareful hstep => h.step hcareful hstep
  have hstart := steady_new authKeys whitelist
  constructor
  · refine Transition.meets_iff.mpr fun pre a post s hacts hrun => ?_
    rw [hacts, Transition.meets_append] at hcareful
    have hsteady : s.Steady := Transition.invariant hstep hstart hcareful.1 hrun
    exact ⟨hsteady.whole, fun out hact => hsteady.calm (hcareful.2 s hrun).1 hact⟩
  · intro s hrun
    exact (Transition.invariant hstep hstart hcareful hrun).whole

section Lab

def labEnv : ServerEnv where
  ctx := { user := ascii "ts", dnsDomain := ascii "lab", domain := ascii "lab", derpRegion := 1
           derpHostname := ascii "lab", derpPort := 8443 }
  parseIp := IpText.parseIp
  toVec doc := (labWriter doc).take 100000

def labServer : Server := { registry := Registry.labRegistry }

/-- The text of a node key of one digit. -/
def labNodeText (n : UInt8) : Text := ascii "nodekey:" ++ List.replicate 64 (48 + n)

def labJoin (n : UInt8) : ServerAct :=
  .register (Registry.labMachine n)
    { nodeKey := some (labNodeText n), authKey := some Registry.labAuthKey
      hostname := some (ascii "m" ++ [48 + n]) } 0

def labMap (n : UInt8) (endpoints : List Text) (stream : Bool) : ServerAct :=
  .map (Registry.labMachine n)
    { nodeKey := some (labNodeText n), discoKey := none, endpoints, routableIps := []
      preferredDerp := none, stream, compress := true }

theorem plain_labNodeText {n : UInt8} (h : n < 10) : PlainText (some (labNodeText n)) := by
  intro t ht b hb
  cases ht
  rcases List.mem_append.mp hb with hb | hb
  · have hall : ∀ b ∈ ascii "nodekey:", b < 128 := by decide +kernel
    exact hall b hb
  · rw [List.eq_of_mem_replicate hb]
    have hall : ∀ n : Fin 10, (48 : UInt8) + UInt8.ofNat n < 128 := by decide
    have hn : n.toNat < 10 := UInt8.lt_iff_toNat_lt.mp h
    simpa using hall ⟨n.toNat, hn⟩

theorem fits_labEnv (f : MapFrame) (compress : Bool) : f.Fits labEnv.toVec labEnv.ctx compress :=
  fun _ => (List.length_take_le _ _).trans_lt (by decide)

/-- Two nodes open streams; that of the second ends, of which the first one tells its client. -/
def labNews : List ServerAct :=
  [labMap 1 [] true, labMap 2 [] true, .update 0 0, .openStream 0 0, .subscribe 0, .update 1 0,
    .openStream 1 0, .hangUp 1, .close 1 1, .recv 0, .push 0 1]

theorem no_panic_of_careful_lab :
    Transition.Meets (step labEnv) (PanicFree labEnv) labServer
        (labJoin 1 :: labJoin 2 :: labNews) ∧
      ∃ s, Transition.run (step labEnv) labServer (labJoin 1 :: labJoin 2 :: labNews) = some s ∧
        s.poisoned = false := by
  have hids : ∀ s, step labEnv labServer (labJoin 1) = some s → s.registry.nextId < 2 ^ 63 - 2 := by
    have hcheck : (step labEnv labServer (labJoin 1)).all
        (fun s => s.registry.nextId < 2 ^ 63 - 2) = true := by decide
    intro s hs
    rw [hs] at hcheck
    exact of_decide_eq_true hcheck
  have hsome : (Transition.run (step labEnv) labServer
      (labJoin 1 :: labJoin 2 :: labNews)).isSome = true := by decide +kernel
  obtain ⟨s, hrun⟩ := Option.isSome_iff_exists.mp hsome
  have hpanics := no_panic_of_careful labEnv _ _ (labJoin 1 :: labJoin 2 :: labNews)
    ⟨⟨plain_labNodeText (by decide), by decide⟩, fun s hs =>
      ⟨⟨plain_labNodeText (by decide), hids s hs⟩, fun s _ =>
        Transition.meets_of_forall (fun s a ha => ?_) s⟩⟩
  · exact ⟨hpanics.1, s, hrun, hpanics.2 s hrun⟩
  · simp only [labNews, List.mem_cons, List.not_mem_nil, or_false] at ha
    rcases ha with rfl | rfl | rfl | rfl | rfl | rfl | rfl | rfl | rfl | rfl | rfl
    · exact ⟨plain_labNodeText (by decide), fun t ht => nomatch ht⟩
    · exact ⟨plain_labNodeText (by decide), fun t ht => nomatch ht⟩
    · trivial
    · exact fun _ _ _ _ _ => fits_labEnv _ _
    · trivial
    · trivial
    · exact fun _ _ _ _ _ => fits_labEnv _ _
    · trivial
    · trivial
    · trivial
    · exact ⟨fun _ _ _ _ _ => fits_labEnv _ _, fun _ _ _ _ _ _ => fits_labEnv _ _⟩

/-- A node is evicted while its map request is under way: the stream panics with the lock, and the
next registration, of another machine, panics too. -/
theorem evicted_stream_poisons :
    ∃ s out out', Transition.run (step labEnv) labServer
        [labJoin 1, labMap 1 [] true, .update 0 0, .evict .ascending (ascii "m1")] = some s ∧
      s.poisoned = false ∧ s.act labEnv (.openStream 0 0) = some out ∧ out.panicked = true ∧
        out.server.poisoned = true ∧ out.server.act labEnv (labJoin 2) = some out' ∧
          out'.panicked = true := by
  have hcheck : (Transition.run (step labEnv) labServer
      [labJoin 1, labMap 1 [] true, .update 0 0, .evict .ascending (ascii "m1")]).any
        (fun s => !s.poisoned && (s.act labEnv (.openStream 0 0)).any fun out =>
          out.panicked && out.server.poisoned &&
            (out.server.act labEnv (labJoin 2)).any Outcome.panicked) = true := by
    decide +kernel
  obtain ⟨s, hs, hrest⟩ := (Option.any_eq_true _ _).mp hcheck
  rw [Bool.and_eq_true, Bool.not_eq_true'] at hrest
  obtain ⟨out, hout, hpanics⟩ := (Option.any_eq_true _ _).mp hrest.2
  rw [Bool.and_eq_true, Bool.and_eq_true] at hpanics
  obtain ⟨out', hout', hagain⟩ := (Option.any_eq_true _ _).mp hpanics.2
  exact ⟨s, out, out', hs, hrest.1, hout, hpanics.1.1, hpanics.1.2, hout', hagain⟩

end Lab

end Server

/-! ## The online flag of a node -/

/-- The node whose stream a task is. -/
def MapTask.streamOf : MapTask → Option ℤ
  | .checked _ _ _ | .updated _ _ => none
  | .opened nid _ | .live nid _ _ | .received nid _ _ _ | .lagged nid _ _ | .ended nid => some nid

namespace Server

/-- The node has an open stream. -/
def Streams (s : Server) (nid : ℤ) : Prop :=
  ∃ (t : ℕ) (task : MapTask), s.tasks[t]? = some task ∧ task.streamOf = some nid

/-- The step opens or ends a stream of the node. -/
inductive OpensOrEnds (s : Server) (nid : ℤ) : ServerAct → Prop
  | opens {t : ℕ} {compress : Bool} (now : UInt64)
      (htask : s.tasks[t]? = some (.updated nid compress)) : OpensOrEnds s nid (.openStream t now)
  | ends {t : ℕ} (now : UInt64) (htask : s.tasks[t]? = some (.ended nid)) :
      OpensOrEnds s nid (.close t now)

/-- After the step the flag of a registered node whose stream it opened or ended is exact. -/
def OnlineExact (env : ServerEnv) (s : Server) (a : ServerAct) : Prop :=
  ∀ s' nid e, s.step env a = some s' → s.OpensOrEnds nid a → s'.registry.nodes[nid]? = some e →
    (e.online = true ↔ s'.Streams nid)

/-- The step does not end a stream of a node that has another one. -/
def EndsAlone (s : Server) : ServerAct → Prop
  | .close t _ => ∀ nid, s.tasks[t]? = some (.ended nid) →
      ∀ (t' : ℕ) (task : MapTask), t' ≠ t → s.tasks[t']? = some task → task.streamOf ≠ some nid
  | _ => True

theorem markOnline_online {r : Registry} {nid : ℤ} {online : Bool} {now : UInt64} {e : NodeEntry}
    (h : (r.markOnline nid online now).nodes[nid]? = some e) : e.online = online := by
  rw [Registry.markOnline] at h
  cases hentry : r.nodes[nid]? with
  | none =>
    rw [hentry, Option.elim_none, hentry] at h
    cases h
  | some e' =>
    rw [hentry, Option.elim_some] at h
    split_ifs at h with hflag
    · rw [Registry.send, Table.getElem?_insert_self] at h
      cases h
      rfl
    · cases hentry.symm.trans h
      exact not_not.mp hflag

variable {env : ServerEnv} {s : Server} {a : ServerAct}

theorem Steady.onlineExact (h : s.Steady) (hcareful : s.Careful env a) (halone : s.EndsAlone a) :
    s.OnlineExact env a := by
  intro s' nid e hstep hstream he
  obtain ⟨out, hact, rfl⟩ := Option.map_eq_some_iff.mp hstep
  cases hstream with
  | @opens t compress now htask =>
    obtain ⟨self, hself⟩ := Option.isSome_iff_exists.mp (h.tasks t _ htask)
    obtain ⟨bytes, hbytes⟩ := encode_of_fits (hcareful _ _ htask self hself)
    have hget : s.registry.get nid = some self := hself
    rw [Server.act, htask] at hact
    cases hact
    simp only [sendInitial, h.whole, Bool.false_eq_true, if_false, hget, hbytes] at he ⊢
    refine iff_of_true (markOnline_online he) ?_
    exact ⟨t, _, Table.getElem?_insert_self _ _ _, rfl⟩
  | @ends t now htask =>
    rw [Server.act, htask] at hact
    cases hact
    simp only [endStream, h.whole, Bool.false_eq_true, if_false] at he ⊢
    refine iff_of_false ?_ ?_
    · rw [markOnline_online he]
      exact Bool.false_ne_true
    · rintro ⟨t', task, htask', hstream⟩
      rw [finish, Table.getElem?_erase] at htask'
      split_ifs at htask' with hne
      exact halone nid htask t' task (fun h => hne h.symm) htask' hstream

/-- In every run of careful steps that end a stream only when its node has no other one, the online
flag is exact after every opening and ending of a stream. -/
theorem online_flag_exact (env : ServerEnv) (authKeys : List Text) (whitelist : RoutesWhitelist)
    (acts : List ServerAct)
    (hcond : Transition.Meets (step env) (fun s a => s.Careful env a ∧ s.EndsAlone a)
      { registry := .new authKeys whitelist } acts) :
    Transition.Meets (step env) (OnlineExact env) { registry := .new authKeys whitelist } acts := by
  refine Transition.meets_iff.mpr fun pre a post s hacts hrun => ?_
  rw [hacts, Transition.meets_append] at hcond
  have hstep : ∀ s a s', Steady s → (s.Careful env a ∧ s.EndsAlone a) → step env s a = some s' →
      Steady s' := fun _ _ _ h hcond hstep => h.step hcond.1 hstep
  have hsteady : s.Steady := Transition.invariant hstep (steady_new authKeys whitelist) hcond.1 hrun
  obtain ⟨hcareful, halone⟩ := (hcond.2 s hrun).1
  exact hsteady.onlineExact hcareful halone

section Lab

def labStream : List ServerAct :=
  [labJoin 1, labMap 1 [] true, .update 0 0, .openStream 0 0, .subscribe 0, .hangUp 0]

theorem online_flag_exact_lab :
    Transition.Meets (step labEnv) (OnlineExact labEnv) labServer (labStream ++ [.close 0 1]) := by
  refine online_flag_exact labEnv _ _ _ (Transition.meets_append.mpr ?_)
  refine ⟨⟨⟨⟨?_, ?_⟩, trivial⟩, ?_⟩, ?_⟩
  · exact plain_labNodeText (by decide)
  · decide
  · intro s _
    refine Transition.meets_of_forall (fun s a ha => ?_) s
    simp only [List.mem_cons, List.not_mem_nil, or_false] at ha
    rcases ha with rfl | rfl | rfl | rfl | rfl
    · exact ⟨⟨plain_labNodeText (by decide), fun t ht => nomatch ht⟩, trivial⟩
    · exact ⟨trivial, trivial⟩
    · exact ⟨fun _ _ _ _ _ => fits_labEnv _ _, trivial⟩
    · exact ⟨trivial, trivial⟩
    · exact ⟨trivial, trivial⟩
  · intro s hrun
    have hcheck : (Transition.run (step labEnv) labServer labStream).any
        (fun s => s.tasks.keys == [0]) = true := by decide +kernel
    obtain ⟨s', hs', hkeys⟩ := (Option.any_eq_true _ _).mp hcheck
    cases hrun.symm.trans hs'
    refine ⟨⟨trivial, fun nid _ t' task hne htask => absurd ?_ hne⟩, fun _ _ => trivial⟩
    have hmem : t' ∈ s.tasks.keys := by
      rw [Std.ExtTreeMap.mem_keys, Std.ExtTreeMap.mem_iff_isSome_getElem?, htask]
      rfl
    rw [beq_iff_eq.mp hkeys] at hmem
    exact List.mem_singleton.mp hmem

/-- A node reconnects before its old stream has ended: when that ends, the node is offline with a
stream open. -/
theorem offline_with_stream :
    ∃ (s : Server) (e : NodeEntry) (t : ℕ) (task : MapTask),
      Transition.run (step labEnv) labServer
        (labStream ++ [labMap 1 [] true, .update 1 1, .openStream 1 1, .subscribe 1, .close 0 2]) =
          some s ∧ s.poisoned = false ∧ s.registry.nodes[(1 : ℤ)]? = some e ∧ e.online = false ∧
        s.tasks[t]? = some task ∧ task.streamOf = some 1 := by
  have hcheck : (Transition.run (step labEnv) labServer
      (labStream ++ [labMap 1 [] true, .update 1 1, .openStream 1 1, .subscribe 1, .close 0 2])).any
        (fun s => !s.poisoned && (s.registry.nodes[(1 : ℤ)]?).any (fun e => !e.online) &&
          (s.tasks[1]?).any fun task => task.streamOf == some 1) = true := by
    decide +kernel
  obtain ⟨s, hs, hrest⟩ := (Option.any_eq_true _ _).mp hcheck
  rw [Bool.and_eq_true, Bool.and_eq_true, Bool.not_eq_true'] at hrest
  obtain ⟨e, he, honline⟩ := (Option.any_eq_true _ _).mp hrest.1.2
  obtain ⟨task, htask, hstream⟩ := (Option.any_eq_true _ _).mp hrest.2
  rw [Bool.not_eq_true'] at honline
  exact ⟨s, e, 1, task, hs, hrest.1.1, he, honline, htask, beq_iff_eq.mp hstream⟩

end Lab

end Server

end Ts2021

end Rill
