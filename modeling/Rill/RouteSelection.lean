import Rill.TsExitGate

/-!
# Route selection

The table of a `RouteEngine` after any insertions and removals holds the entries that were inserted
and not removed later, in the order of insertion. `lookup` gives those whose prefix matches: the
longer prefix first, then the source of higher rank, then the one inserted first. `lookup_best` is
the first of them that is reachable.
-/

namespace Rill
open StableSort

inductive EngineOp where
  | insert (entry : RouteEntry)
  | removeMeshNode (nodeId : UInt32)
  | removeDn42Route (route : Prefix) (peer : Text)
  | removeDn42Peer (peer : Text)
  | removeTailnetPeer (peer : Text)
  | resetMeshRoutes
  | resetDynDn42Routes
  | removeDynDn42Node (nodeId : UInt32)

namespace RouteEngine

def perform (engine : RouteEngine) : EngineOp → RouteEngine
  | .insert entry => engine.insert entry
  | .removeMeshNode nodeId => engine.removeMeshNode nodeId
  | .removeDn42Route route peer => engine.removeDn42Route route peer
  | .removeDn42Peer peer => engine.removeDn42Peer peer
  | .removeTailnetPeer peer => engine.removeTailnetPeer peer
  | .resetMeshRoutes => engine.resetMeshRoutes
  | .resetDynDn42Routes => engine.resetDynDn42Routes
  | .removeDynDn42Node nodeId => engine.removeDynDn42Node nodeId

def performAll (ops : List EngineOp) : RouteEngine := ops.foldl perform {}

end RouteEngine

def EngineOp.removes : EngineOp → RouteEntry → Bool
  | .insert _, _ => false
  | .removeMeshNode nodeId, e => e.source == .mesh && e.via == .mesh nodeId
  | .removeDn42Route route peer, e => e.route == route && e.source == .dn42 && e.via == .dn42 peer
  | .removeDn42Peer peer, e => e.source == .dn42 && e.via == .dn42 peer
  | .removeTailnetPeer peer, e => e.source == .tailnet && e.via == .tailnet peer
  | .resetMeshRoutes, e => e.source == .mesh
  | .resetDynDn42Routes, e => e.source == .dynDn42
  | .removeDynDn42Node nodeId, e => e.source == .dynDn42 && e.via == .mesh nodeId

def EngineOp.inserted : EngineOp → Option RouteEntry
  | .insert entry => some entry
  | _ => none

/-- The entries inserted by the calls and not removed by a later one, with the numbers of the calls
that inserted them. -/
def storedFrom (i : ℕ) : List EngineOp → List (ℕ × RouteEntry)
  | [] => []
  | op :: ops =>
    match op.inserted with
    | none => storedFrom (i + 1) ops
    | some entry =>
      if ops.any (·.removes entry) then storedFrom (i + 1) ops
      else (i, entry) :: storedFrom (i + 1) ops

def stored (ops : List EngineOp) : List (ℕ × RouteEntry) := storedFrom 0 ops

/-- The order of selection: the longer prefix, then the source of higher rank, then the earlier
insertion. -/
def Before (a b : ℕ × RouteEntry) : Prop :=
  b.2.route.len.toNat < a.2.route.len.toNat ∨
    a.2.route.len.toNat = b.2.route.len.toNat ∧
      (a.2.source.priority < b.2.source.priority ∨
        a.2.source.priority = b.2.source.priority ∧ a.1 < b.1)

theorem perform_table (engine : RouteEngine) (op : EngineOp) : (engine.perform op).table =
    engine.table.filter (fun e => !op.removes e) ++ op.inserted.toList := by
  cases op with
  | insert entry =>
    change engine.table ++ [entry] = engine.table.filter (fun _ => true) ++ [entry]
    rw [List.filter_true]
  | _ => exact (List.append_nil _).symm

theorem storedFrom_concat (i : ℕ) (ops : List EngineOp) (op : EngineOp) :
    storedFrom i (ops ++ [op]) = (storedFrom i ops).filter (fun e => !op.removes e.2) ++
      op.inserted.toList.map (i + ops.length, ·) := by
  induction ops generalizing i with
  | nil =>
    rw [List.nil_append, storedFrom, storedFrom]
    cases op.inserted <;> simp [storedFrom]
  | cons first ops ih =>
    have hshift : i + 1 + ops.length = i + (ops.length + 1) := by omega
    rw [List.cons_append, storedFrom, storedFrom, List.length_cons]
    cases first.inserted with
    | none => rw [ih, hshift]
    | some entry =>
      dsimp only
      rw [List.any_append, List.any_cons, List.any_nil, Bool.or_false, ih, hshift]
      cases hlater : ops.any (·.removes entry) with
      | true => simp
      | false => cases hremoves : op.removes entry <;> simp [hremoves]

theorem stored_eq_table (ops : List EngineOp) :
    (RouteEngine.performAll ops).table = (stored ops).map Prod.snd := by
  induction ops using List.reverseRecOn with
  | nil => rfl
  | append_singleton ops op ih =>
    rw [RouteEngine.performAll, List.foldl_concat, ← RouteEngine.performAll, perform_table, ih,
      stored, stored, storedFrom_concat, List.map_append, List.filter_map, List.map_map]
    congr 1
    cases op.inserted <;> rfl

theorem le_of_mem_storedFrom {i : ℕ} {ops : List EngineOp} {e : ℕ × RouteEntry}
    (h : e ∈ storedFrom i ops) : i ≤ e.1 := by
  induction ops generalizing i with
  | nil => exact absurd h List.not_mem_nil
  | cons op ops ih =>
    rw [storedFrom] at h
    cases hop : op.inserted with
    | none =>
      rw [hop] at h
      have := ih h
      omega
    | some entry =>
      rw [hop] at h
      dsimp only at h
      split_ifs at h
      · have := ih h
        omega
      · rcases List.mem_cons.mp h with rfl | h
        · exact le_rfl
        · have := ih h
          omega

theorem pairwise_storedFrom (i : ℕ) (ops : List EngineOp) :
    (storedFrom i ops).Pairwise fun a b => a.1 < b.1 := by
  induction ops generalizing i with
  | nil => exact .nil
  | cons op ops ih =>
    rw [storedFrom]
    cases op.inserted with
    | none => exact ih (i + 1)
    | some entry =>
      dsimp only
      split_ifs
      · exact ih (i + 1)
      · exact List.pairwise_cons.mpr ⟨fun e he => le_of_mem_storedFrom he, ih (i + 1)⟩

theorem matching_of_total {checks : Bool} {addr : IpAddr} {hit : Prefix → Bool}
    {es : List RouteEntry} (h : ∀ e ∈ es, e.route.matchesAddr checks addr = some (hit e.route)) :
    RouteEngine.matching checks addr es = some (es.filter fun e => hit e.route) := by
  induction es with
  | nil => rfl
  | cons e es ih =>
    rw [RouteEngine.matching, h e List.mem_cons_self,
      ih fun d hd => h d (List.mem_cons_of_mem e hd), List.filter_cons]
    rfl

theorem firstReachable_of_total (reachable : RouteEntry → Bool) (es : List RouteEntry) :
    RouteEngine.firstReachable (fun e => some (reachable e)) es = some (es.find? reachable) := by
  induction es with
  | nil => rfl
  | cons e es ih =>
    rw [RouteEngine.firstReachable, List.find?_cons]
    cases hreach : reachable e with
    | true => rfl
    | false => exact ih

def selectionKey (e : RouteEntry) : ℕᵒᵈ ×ₗ ℕ :=
  toLex (OrderDual.toDual e.route.len.toNat, e.source.priority)

/-- Sorting by length and then by the key of `lookup` gives the order of selection. -/
theorem pairwise_before {l : List (ℕ × RouteEntry)} (h : l.Pairwise fun a b => a.1 < b.1) :
    (sortByKey (fun e => selectionKey e.2)
      (sortByKey (fun e => e.2.route.len.toNat) l)).Pairwise Before := by
  refine (pairwise_sortByKey_of_pairwise (pairwise_sortByKey_of_pairwise h)).imp ?_
  rintro a b (hlt | ⟨heq, horder⟩)
  · rcases Prod.Lex.toLex_lt_toLex.mp hlt with hlen | ⟨hlen, hrank⟩
    · exact .inl (OrderDual.toDual_lt_toDual.mp hlen)
    · exact .inr ⟨hlen, .inl hrank⟩
  · obtain ⟨hlen, hrank⟩ := Prod.mk.inj (toLex.injective heq)
    have hlen : a.2.route.len.toNat = b.2.route.len.toNat := hlen
    rcases horder with hlt | ⟨-, hstamp⟩
    · omega
    · exact .inr ⟨hlen, .inr ⟨hrank, hstamp⟩⟩

/-- After any calls `lookup` gives the entries that are stored and match, each once, in the order
of selection, and `lookup_best` the first of them that is reachable. -/
theorem route_selection (ops : List EngineOp) (checks : Bool) (addr : IpAddr) (hit : Prefix → Bool)
    (hmatches : ∀ e ∈ stored ops, e.2.route.matchesAddr checks addr = some (hit e.2.route))
    (reachable : RouteEntry → Bool) :
    ∃ picked : List (ℕ × RouteEntry),
      picked.Perm ((stored ops).filter fun e => hit e.2.route) ∧ picked.Pairwise Before ∧
      (RouteEngine.performAll ops).lookup checks addr = some (picked.map Prod.snd) ∧
      (RouteEngine.performAll ops).lookupBest checks addr (fun e => some (reachable e)) =
        some ((picked.map Prod.snd).find? reachable) := by
  have htable : ∀ e ∈ (RouteEngine.performAll ops).table,
      e.route.matchesAddr checks addr = some (hit e.route) := by
    intro e he
    rw [stored_eq_table] at he
    obtain ⟨entry, hentry, rfl⟩ := List.mem_map.mp he
    exact hmatches entry hentry
  have hlookup : (RouteEngine.performAll ops).lookup checks addr =
      some ((sortByKey (fun e => selectionKey e.2) (sortByKey (fun e => e.2.route.len.toNat)
        ((stored ops).filter fun e => hit e.2.route))).map Prod.snd) := by
    have hlen : (sortByKey (fun e : ℕ × RouteEntry => e.2.route.len.toNat)
        ((stored ops).filter fun e => hit e.2.route)).map Prod.snd =
        sortByKey (fun e : RouteEntry => e.route.len.toNat)
          (((stored ops).filter fun e => hit e.2.route).map Prod.snd) :=
      @map_sortByKey RouteEntry ℕ _ (fun e => e.route.len.toNat) _ Prod.snd _
    rw [RouteEngine.lookup, RouteEngine.matchesTable, matching_of_total htable, stored_eq_table,
      map_sortByKey, hlen, List.filter_map]
    rfl
  refine ⟨_, (perm_sortByKey _).trans (perm_sortByKey _),
    pairwise_before ((pairwise_storedFrom 0 ops).filter _), hlookup, ?_⟩
  rw [RouteEngine.lookupBest, hlookup]
  exact firstReachable_of_total reachable _

section Lab

def labWide : Prefix := ⟨0x0a000000000000000000000000000000, 8, true, by decide, by decide⟩

def labNarrow : Prefix := ⟨0x0a000000000000000000000000000000, 24, true, by decide, by decide⟩

/-- Routes of three sources, one of which is gone again. -/
def labOps : List EngineOp :=
  [.insert { route := labWide, source := .tailnet, via := .tailnet [1] },
    .insert { route := labWide, source := .mesh, via := .mesh 7 },
    .insert { route := labNarrow, source := .dn42, via := .dn42 [2] },
    .insert { route := labNarrow, source := .mesh, via := .mesh 9 },
    .removeDn42Peer [2]]

theorem route_selection_lab :
    ∃ picked : List (ℕ × RouteEntry),
      picked.Perm ((stored labOps).filter
        fun e => e.2.route.contains (Prefix.fromIp (.v4 0x0a000001))) ∧
      picked.Pairwise Before ∧
      (RouteEngine.performAll labOps).lookup false (.v4 0x0a000001) =
        some (picked.map Prod.snd) ∧
      (RouteEngine.performAll labOps).lookupBest false (.v4 0x0a000001)
        (fun e => some (e.via == .mesh 7)) =
        some ((picked.map Prod.snd).find? (·.via == .mesh 7)) :=
  route_selection labOps false (.v4 0x0a000001)
    (fun p => p.contains (Prefix.fromIp (.v4 0x0a000001))) (fun _ _ => rfl) (·.via == .mesh 7)

end Lab

end Rill
