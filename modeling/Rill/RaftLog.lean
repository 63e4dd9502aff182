import Rill.Machine
import Rill.TableAssign
import Rill.Transition

/-!
# The raft log on disk

`RaftLogStore` keeps the entries of the raft log by their index and the id of the last purged one
beside them. The abstract log is a list of entries after a purged id. The calls that openraft may
make keep its indices contiguous, and the store shows exactly its entries, also when it is opened
again. The database is the two tables of its last committed transaction, a value stored in them is
the document that serde makes of it, and an error is `none`.
-/

namespace Rill

inductive IndexBound where
  | included (i : UInt64)
  | excluded (i : UInt64)
  | unbounded
  deriving DecidableEq

structure IndexRange where
  start : IndexBound
  stop : IndexBound
  deriving DecidableEq

def IndexRange.contains (r : IndexRange) (i : UInt64) : Bool :=
  (match r.start with
    | .included j => j ≤ i
    | .excluded j => j < i
    | .unbounded => true) &&
  match r.stop with
    | .included j => i ≤ j
    | .excluded j => i < j
    | .unbounded => true

/-- The log ids, entries and votes of openraft, and their documents. -/
structure LogCodec (Id E Vote Doc : Type) where
  index : Id → UInt64
  logId : E → Id
  entryVec : E → Option Doc
  entrySlice : Doc → Option E
  idVec : Id → Option Doc
  idSlice : Doc → Option Id
  voteVec : Vote → Option Doc
  voteSlice : Doc → Option Vote

/-- A document that serde makes is read back as the value it was made of. -/
structure LogCodec.Lawful {Id E Vote Doc : Type} (C : LogCodec Id E Vote Doc) : Prop where
  entry : ∀ e, ∃ doc, C.entryVec e = some doc ∧ C.entrySlice doc = some e
  id : ∀ id, ∃ doc, C.idVec id = some doc ∧ C.idSlice doc = some id
  vote : ∀ v, ∃ doc, C.voteVec v = some doc ∧ C.voteSlice doc = some v

structure LogMeta (Doc : Type) where
  vote : Option Doc := none
  lastPurged : Option Doc := none

/-- The tables of the database; one that no transaction has opened does not exist. -/
structure RaftLogStore (Doc : Type) where
  logTable : Option (Table UInt64 Doc) := none
  metaTable : Option (LogMeta Doc) := none

structure LogState (Id : Type) where
  lastPurgedLogId : Option Id
  lastLogId : Option Id
  deriving DecidableEq

namespace RaftLogStore
variable {Id E Vote Doc T : Type} (C : LogCodec Id E Vote Doc)

def readMeta (s : RaftLogStore Doc) (key : LogMeta Doc → Option Doc) (slice : Doc → Option T) :
    Option (Option T) :=
  match s.metaTable.bind key with
  | none => some none
  | some doc => (slice doc).map some

def getLogState (s : RaftLogStore Doc) : Option (LogState Id) :=
  (s.readMeta LogMeta.lastPurged C.idSlice).bind fun lastPurged =>
    match s.logTable with
    | none => some { lastPurgedLogId := lastPurged, lastLogId := none }
    | some table =>
      let last := match table.toList.getLast? with
        | none => some none
        | some (_, doc) => (C.entrySlice doc).map fun e => some (C.logId e)
      last.map fun last => { lastPurgedLogId := lastPurged, lastLogId := last.or lastPurged }

def saveVote (s : RaftLogStore Doc) (vote : Vote) : Option (RaftLogStore Doc) :=
  (C.voteVec vote).map fun doc =>
    { s with metaTable := some { s.metaTable.getD {} with vote := some doc } }

def append (s : RaftLogStore Doc) (entries : List E) : Option (RaftLogStore Doc) :=
  (entries.mapM fun e => (C.entryVec e).map fun doc => (C.index (C.logId e), doc)).map
    fun serialized =>
      let table := serialized.foldl (fun t x => t.insert x.1 x.2) (s.logTable.getD ∅)
      { s with logTable := some table }

/-- The removal of the indices that a range of the table has. -/
def removeStale (table : Table UInt64 Doc) (range : IndexRange) : Table UInt64 Doc :=
  Table.eraseAll (table.keys.filter range.contains) table

def truncate (s : RaftLogStore Doc) (logId : Id) : RaftLogStore Doc :=
  let table := removeStale (s.logTable.getD ∅) ⟨.included (C.index logId), .unbounded⟩
  { s with logTable := some table }

def purge (s : RaftLogStore Doc) (logId : Id) : Option (RaftLogStore Doc) :=
  (C.idVec logId).map fun doc =>
    { logTable := some (removeStale (s.logTable.getD ∅) ⟨.unbounded, .included (C.index logId)⟩)
      metaTable := some { s.metaTable.getD {} with lastPurged := some doc } }

def tryGetLogEntries (s : RaftLogStore Doc) (range : IndexRange) : Option (List E) :=
  match s.logTable with
  | none => some []
  | some table => (table.toList.filter fun x => range.contains x.1).mapM fun x => C.entrySlice x.2

/-- A process that opens the file finds what the transactions before have committed. -/
def reopen (s : RaftLogStore Doc) : RaftLogStore Doc := s

end RaftLogStore

inductive LogCall (Id E Vote : Type) where
  | saveVote (vote : Vote)
  | append (entries : List E)
  | truncate (logId : Id)
  | purge (logId : Id)
  | reopen

def RaftLogStore.perform {Id E Vote Doc : Type} (C : LogCodec Id E Vote Doc)
    (s : RaftLogStore Doc) : LogCall Id E Vote → Option (RaftLogStore Doc)
  | .saveVote vote => s.saveVote C vote
  | .append entries => s.append C entries
  | .truncate logId => some (s.truncate C logId)
  | .purge logId => s.purge C logId
  | .reopen => some s.reopen

/-! ## The abstract log -/

structure AbstractLog (Id E : Type) where
  purged : Option Id := none
  entries : List E := []

namespace AbstractLog
variable {Id E Vote Doc : Type} (C : LogCodec Id E Vote Doc)

def start (a : AbstractLog Id E) : ℕ := a.purged.elim 0 fun id => (C.index id).toNat + 1

def indices (entries : List E) : List ℕ := entries.map fun e => (C.index (C.logId e)).toNat

def apply (a : AbstractLog Id E) : LogCall Id E Vote → AbstractLog Id E
  | .append entries => { a with entries := a.entries ++ entries }
  | .truncate logId => { a with entries := a.entries.filter fun e =>
      (C.index (C.logId e)).toNat < (C.index logId).toNat }
  | .purge logId => { purged := some logId, entries := a.entries.filter fun e =>
      (C.index logId).toNat < (C.index (C.logId e)).toNat }
  | .saveVote _ | .reopen => a

/-- What openraft may call: appends go on after the last id, a truncation is above the purged
entries, and purged ids do not go back. -/
def Allows (a : AbstractLog Id E) : LogCall Id E Vote → Prop
  | .append entries =>
    indices C entries = List.range' (a.start C + a.entries.length) entries.length
  | .truncate logId => a.start C ≤ (C.index logId).toNat
  | .purge logId => a.start C ≤ (C.index logId).toNat + 1
  | .saveVote _ | .reopen => True

instance decidableAllows (a : AbstractLog Id E) :
    (call : LogCall Id E Vote) → Decidable (a.Allows C call)
  | .append _ => inferInstanceAs (Decidable (_ = _))
  | .truncate _ => inferInstanceAs (Decidable (_ ≤ _))
  | .purge _ => inferInstanceAs (Decidable (_ ≤ _))
  | .saveVote _ => inferInstanceAs (Decidable True)
  | .reopen => inferInstanceAs (Decidable True)

/-- The entries are numbered from the index after the purged one, without a gap. -/
def Contiguous (a : AbstractLog Id E) : Prop :=
  indices C a.entries = List.range' (a.start C) a.entries.length

variable {C}

theorem filter_lt_range' (k s n : ℕ) :
    (List.range' s n).filter (fun i => decide (i < k)) = List.range' s (min n (k - s)) := by
  induction n generalizing s with
  | zero => simp
  | succ n ih =>
    rw [List.range'_succ, List.filter_cons, ih]
    split_ifs with hs
    · rw [decide_eq_true_iff] at hs
      have hmin : min (n + 1) (k - s) = min n (k - (s + 1)) + 1 := by omega
      rw [hmin, List.range'_succ]
    · rw [decide_eq_true_iff] at hs
      have hmin : min (n + 1) (k - s) = 0 := by omega
      have hmin' : min n (k - (s + 1)) = 0 := by omega
      rw [hmin, hmin']
      rfl

theorem filter_gt_range' (k s n : ℕ) (h : s ≤ k + 1) :
    (List.range' s n).filter (fun i => decide (k < i)) = List.range' (k + 1) (s + n - (k + 1)) := by
  induction n generalizing s with
  | zero =>
    have hzero : s + 0 - (k + 1) = 0 := by omega
    rw [hzero]
    rfl
  | succ n ih =>
    rcases h.eq_or_lt with rfl | hlt
    · rw [List.filter_eq_self.mpr]
      · congr 1
        omega
      · intro i hi
        have hle := (List.mem_range'_1.mp hi).1
        exact decide_eq_true (by omega)
    · rw [List.range'_succ, List.filter_cons_of_neg (by simp; omega), ih (s + 1) (by omega)]
      congr 1
      omega

theorem indices_filter (p : ℕ → Bool) (entries : List E) :
    indices C (entries.filter fun e => p (C.index (C.logId e)).toNat) =
      (indices C entries).filter p := by
  rw [indices, indices, List.filter_map]
  rfl

theorem indices_eq_range' {entries : List E} {s n : ℕ} (h : indices C entries = List.range' s n) :
    indices C entries = List.range' s entries.length := by
  have hlen : entries.length = n := by
    rw [← List.length_range' (s := s) (n := n), ← h]
    exact (List.length_map _).symm
  rw [h, hlen]

theorem Contiguous.apply {a : AbstractLog Id E} (h : a.Contiguous C) {call : LogCall Id E Vote}
    (hcall : a.Allows C call) : (a.apply C call).Contiguous C := by
  cases call with
  | saveVote vote => exact h
  | reopen => exact h
  | append entries =>
    change indices C (a.entries ++ entries) = List.range' (a.start C) (a.entries ++ entries).length
    have hcall : indices C entries = _ := hcall
    rw [indices, List.map_append, List.length_append, ← List.range'_append_1]
    exact congrArg₂ (· ++ ·) h hcall
  | truncate logId =>
    refine indices_eq_range' (n := min a.entries.length ((C.index logId).toNat - a.start C)) ?_
    refine (indices_filter (fun i => decide (i < (C.index logId).toNat)) a.entries).trans ?_
    rw [show indices C a.entries = _ from h, filter_lt_range']
    rfl
  | purge logId =>
    have hcall : a.start C ≤ (C.index logId).toNat + 1 := hcall
    refine indices_eq_range' (n := a.start C + a.entries.length - ((C.index logId).toNat + 1)) ?_
    refine (indices_filter (fun i => decide ((C.index logId).toNat < i)) a.entries).trans ?_
    rw [show indices C a.entries = _ from h, filter_gt_range' _ _ _ hcall]
    rfl

theorem Contiguous.pairwise {a : AbstractLog Id E} (h : a.Contiguous C) :
    a.entries.Pairwise fun e e' => C.index (C.logId e) < C.index (C.logId e') := by
  have hsorted : (indices C a.entries).Pairwise (· < ·) := by
    rw [show indices C a.entries = _ from h]
    exact List.pairwise_lt_range'
  exact (List.pairwise_map.mp hsorted).imp fun hlt => UInt64.lt_iff_toNat_lt.mpr hlt

end AbstractLog

/-! ## The refinement -/

theorem Table.toList_eq_of_pairwise {V B : Type} {key : B → UInt64} {val : B → V} {l : List B}
    {t : Table UInt64 V} (hl : l.Pairwise fun b b' => key b < key b')
    (ht : ∀ k v, t[k]? = some v ↔ ∃ b ∈ l, key b = k ∧ val b = v) :
    t.toList = l.map fun b => (key b, val b) := by
  have hkeys : (l.map fun b => (key b, val b)).Pairwise fun x y => x.1 < y.1 :=
    List.pairwise_map.mpr hl
  have htable : t.toList.Pairwise fun x y => x.1 < y.1 :=
    Std.ExtTreeMap.ordered_keys_toList.imp fun hlt => Std.compare_eq_lt.mp hlt
  have hnodup : ∀ l : List (UInt64 × V), (l.Pairwise fun x y => x.1 < y.1) → l.Nodup :=
    fun l h => List.nodup_iff_pairwise_ne.mpr (h.imp fun hlt heq =>
      UInt64.ne_of_lt hlt (congrArg Prod.fst heq))
  refine List.Perm.eq_of_pairwise ?_ htable hkeys ?_
  · intro x y _ _ hxy hyx
    exact absurd hyx (UInt64.not_lt.mpr (UInt64.le_of_lt hxy))
  · refine (List.perm_ext_iff_of_nodup (hnodup _ htable) (hnodup _ hkeys)).mpr fun x => ?_
    rw [Std.ExtTreeMap.mem_toList_iff_getElem?_eq_some, ht]
    simp [Prod.ext_iff]

section Refinement
variable {Id E Vote Doc : Type} {C : LogCodec Id E Vote Doc} {a : AbstractLog Id E}
  {s : RaftLogStore Doc}

structure Refines (C : LogCodec Id E Vote Doc) (a : AbstractLog Id E) (s : RaftLogStore Doc) :
    Prop where
  contiguous : a.Contiguous C
  stored : ∀ i doc, (s.logTable.getD ∅)[i]? = some doc ↔
    ∃ e ∈ a.entries, C.index (C.logId e) = i ∧ C.entryVec e = some doc
  purged : s.readMeta LogMeta.lastPurged C.idSlice = some a.purged
  opened : a.purged.isSome → s.logTable.isSome

theorem getElem?_removeStale (table : Table UInt64 Doc) (range : IndexRange) (i : UInt64) :
    (RaftLogStore.removeStale table range)[i]? = if range.contains i then none else table[i]? := by
  rw [RaftLogStore.removeStale, Table.getElem?_eraseAll]
  by_cases hi : i ∈ table.keys
  · simp [hi]
  · have hnone : table[i]? = none := by
      rw [Std.ExtTreeMap.mem_keys] at hi
      exact Std.ExtTreeMap.getElem?_eq_none hi
    simp [hnone]

namespace Refines

theorem saveVote (hC : C.Lawful) (h : Refines C a s) (vote : Vote) :
    ∃ s', s.saveVote C vote = some s' ∧ Refines C a s' := by
  obtain ⟨doc, hdoc, -⟩ := hC.vote vote
  refine ⟨_, congrArg _ hdoc, h.contiguous, h.stored, ?_, h.opened⟩
  rw [← h.purged]
  cases hmeta : s.metaTable <;> simp only [RaftLogStore.readMeta, hmeta] <;> rfl

theorem append (hC : C.Lawful) (h : Refines C a s) {entries : List E}
    (hcall : a.Allows C (.append entries)) :
    ∃ s', s.append C entries = some s' ∧ Refines C (a.apply C (.append entries)) s' := by
  choose doc hvec hslice using hC.entry
  have hmapM : (entries.mapM fun e => (C.entryVec e).map fun doc => (C.index (C.logId e), doc)) =
      some (entries.map fun e => (C.index (C.logId e), doc e)) := by
    simp only [hvec, Option.map_some]
    exact List.mapM_pure
  have hafter := h.contiguous.apply hcall
  refine ⟨_, congrArg _ hmapM, hafter, fun i d => ?_, h.purged,
    fun _ => rfl⟩
  have hpairwise := hafter.pairwise
  -- The new entries have keys of their own, and none of an old entry.
  obtain ⟨-, hnew, hacross⟩ := List.pairwise_append.mp hpairwise
  have hnodup : (entries.map fun e => C.index (C.logId e)).Nodup :=
    List.nodup_iff_pairwise_ne.mpr
      (List.pairwise_map.mpr (hnew.imp fun hlt => UInt64.ne_of_lt hlt))
  rw [Option.getD_some, List.foldl_map, Table.getElem?_foldl_insert hnodup, Option.or_eq_some_iff,
    Option.map_eq_some_iff, Option.map_eq_none_iff, h.stored]
  constructor
  · rintro (⟨e, he, rfl⟩ | ⟨-, e, he, hi, hd⟩)
    · exact ⟨e, List.mem_append_right _ (List.mem_of_find?_eq_some he),
        by simpa using List.find?_some he, hvec e⟩
    · exact ⟨e, List.mem_append_left _ he, hi, hd⟩
  · rintro ⟨e, he, hi, hd⟩
    rcases List.mem_append.mp he with hold | hmem
    · refine .inr ⟨List.find?_eq_none.mpr fun e' he' heq => ?_, e, hold, hi, hd⟩
      exact UInt64.ne_of_lt (hacross e hold e' he') (hi.trans (of_decide_eq_true heq).symm)
    · have hsome : (entries.find? fun e => C.index (C.logId e) = i).isSome := by
        simpa using ⟨e, hmem, hi⟩
      obtain ⟨e', he'⟩ := Option.isSome_iff_exists.mp hsome
      have hi' : C.index (C.logId e') = i := by simpa using List.find?_some he'
      obtain rfl := List.inj_on_of_nodup_map hnodup (List.mem_of_find?_eq_some he') hmem
        (hi'.trans hi.symm)
      exact .inl ⟨e', he', Option.some.inj ((hvec e').symm.trans hd)⟩

theorem stored_removeStale (h : Refines C a s) (range : IndexRange) (i : UInt64) (doc : Doc) :
    (RaftLogStore.removeStale (s.logTable.getD ∅) range)[i]? = some doc ↔
      ∃ e ∈ a.entries.filter fun e => !range.contains (C.index (C.logId e)),
        C.index (C.logId e) = i ∧ C.entryVec e = some doc := by
  rw [getElem?_removeStale]
  split_ifs with hrange
  · refine iff_of_false nofun ?_
    rintro ⟨e, he, rfl, -⟩
    simp [hrange] at he
  · rw [h.stored]
    constructor
    · rintro ⟨e, he, rfl, hd⟩
      exact ⟨e, List.mem_filter.mpr ⟨he, by simpa using hrange⟩, rfl, hd⟩
    · rintro ⟨e, he, hi, hd⟩
      exact ⟨e, (List.mem_filter.mp he).1, hi, hd⟩

theorem truncate (h : Refines C a s) {logId : Id} (hcall : a.Allows C (.truncate logId)) :
    Refines C (a.apply C (.truncate logId)) (s.truncate C logId) := by
  refine ⟨h.contiguous.apply hcall, fun i doc => ?_, h.purged, fun _ => rfl⟩
  refine (h.stored_removeStale _ i doc).trans ?_
  simp [AbstractLog.apply, IndexRange.contains, UInt64.lt_iff_toNat_lt]

theorem purge (hC : C.Lawful) (h : Refines C a s) {logId : Id}
    (hcall : a.Allows C (.purge logId)) :
    ∃ s', s.purge C logId = some s' ∧ Refines C (a.apply C (.purge logId)) s' := by
  obtain ⟨doc, hdoc, hslice⟩ := hC.id logId
  refine ⟨_, congrArg _ hdoc, h.contiguous.apply hcall, fun i d => ?_,
    congrArg (Option.map some) hslice, fun _ => rfl⟩
  refine (h.stored_removeStale _ i d).trans ?_
  simp [AbstractLog.apply, IndexRange.contains, UInt64.lt_iff_toNat_lt]

theorem perform (hC : C.Lawful) (h : Refines C a s) {call : LogCall Id E Vote}
    (hcall : a.Allows C call) :
    ∃ s', s.perform C call = some s' ∧ Refines C (a.apply C call) s' := by
  cases call with
  | saveVote vote => exact h.saveVote hC vote
  | append entries => exact h.append hC hcall
  | truncate logId => exact ⟨_, rfl, h.truncate hcall⟩
  | purge logId => exact h.purge hC hcall
  | reopen => exact ⟨s, rfl, h⟩

theorem run (hC : C.Lawful) (h : Refines C a s) {calls : List (LogCall Id E Vote)}
    (hcalls : Transition.Meets (fun a call => some (a.apply C call)) (AbstractLog.Allows C) a
      calls) :
    ∃ s', Transition.run (RaftLogStore.perform C) s calls = some s' ∧
      Refines C (calls.foldl (AbstractLog.apply C) a) s' := by
  induction calls generalizing a s with
  | nil => exact ⟨s, rfl, h⟩
  | cons call calls ih =>
    obtain ⟨hcall, hrest⟩ := hcalls
    obtain ⟨s₁, hs₁, h₁⟩ := h.perform hC hcall
    obtain ⟨s', hrun, h'⟩ := ih h₁ (hrest _ rfl)
    refine ⟨s', ?_, h'⟩
    rw [Transition.run, hs₁]
    exact hrun

theorem toList_eq (h : Refines C a s) {doc : E → Doc} (hvec : ∀ e, C.entryVec e = some (doc e)) :
    (s.logTable.getD ∅).toList = a.entries.map fun e => (C.index (C.logId e), doc e) := by
  refine Table.toList_eq_of_pairwise h.contiguous.pairwise fun i d => (h.stored i d).trans ?_
  simp only [hvec, Option.some.injEq]

theorem entries_eq_nil (hC : C.Lawful) (h : Refines C a s) (hlog : s.logTable = none) :
    a.entries = [] := by
  refine List.eq_nil_iff_forall_not_mem.mpr fun e he => ?_
  obtain ⟨doc, hdoc, -⟩ := hC.entry e
  have hstored := (h.stored _ doc).mpr ⟨e, he, rfl, hdoc⟩
  rw [hlog] at hstored
  simp at hstored

theorem keys_eq (hC : C.Lawful) (h : Refines C a s) :
    (s.logTable.getD ∅).keys.map UInt64.toNat =
      List.range' (a.start C) a.entries.length := by
  choose doc hvec hslice using hC.entry
  rw [← Std.ExtTreeMap.map_fst_toList_eq_keys, h.toList_eq hvec, List.map_map, List.map_map]
  exact h.contiguous

theorem tryGetLogEntries (hC : C.Lawful) (h : Refines C a s) (range : IndexRange) :
    s.tryGetLogEntries C range =
      some (a.entries.filter fun e => range.contains (C.index (C.logId e))) := by
  choose doc hvec hslice using hC.entry
  have hlist := h.toList_eq hvec
  rw [RaftLogStore.tryGetLogEntries]
  cases hlog : s.logTable with
  | none =>
    have hnil := h.entries_eq_nil hC hlog
    rw [hnil]
    rfl
  | some table =>
    rw [hlog, Option.getD_some] at hlist
    dsimp only
    have hread : (fun x : UInt64 × Doc => C.entrySlice x.2) ∘
        (fun e => (C.index (C.logId e), doc e)) = fun e => pure e := funext hslice
    rw [hlist, List.filter_map, List.mapM_map, hread]
    exact List.mapM_pure.trans (congrArg some (List.map_id _))

theorem getLogState (hC : C.Lawful) (h : Refines C a s) :
    s.getLogState C = some { lastPurgedLogId := a.purged
                             lastLogId := (a.entries.getLast?.map C.logId).or a.purged } := by
  choose doc hvec hslice using hC.entry
  have hlist := h.toList_eq hvec
  rw [RaftLogStore.getLogState, h.purged, Option.bind_some]
  cases hlog : s.logTable with
  | none =>
    have hnil := h.entries_eq_nil hC hlog
    have hnone : a.purged = none := by
      have hopened := h.opened
      rw [hlog] at hopened
      exact Option.not_isSome_iff_eq_none.mp fun hsome => nomatch hopened hsome
    rw [hnil, hnone]
    rfl
  | some table =>
    rw [hlog, Option.getD_some] at hlist
    dsimp only
    rw [hlist, List.getLast?_map]
    cases a.entries.getLast? with
    | none => rfl
    | some e => simp [hslice]

end Refines

theorem refines_empty : Refines C ({} : AbstractLog Id E) ({} : RaftLogStore Doc) where
  contiguous := rfl
  stored := by simp
  purged := rfl
  opened := nofun

/-- After any calls that openraft may make, the indices of the store are a range after the purged
one, and it shows the entries of the abstract log. -/
theorem raftLog_refines (C : LogCodec Id E Vote Doc) (hC : C.Lawful)
    (calls : List (LogCall Id E Vote))
    (hcalls : Transition.Meets (fun a call => some (a.apply C call)) (AbstractLog.Allows C) {}
      calls) :
    let a : AbstractLog Id E := calls.foldl (AbstractLog.apply C) {}
    ∃ s, Transition.run (RaftLogStore.perform C) {} calls = some s ∧
      (s.logTable.getD ∅).keys.map UInt64.toNat = List.range' (a.start C) a.entries.length ∧
      (∀ range, s.reopen.tryGetLogEntries C range =
        some (a.entries.filter fun e => range.contains (C.index (C.logId e)))) ∧
      AbstractLog.indices C a.entries = List.range' (a.start C) a.entries.length ∧
      s.reopen.getLogState C = some
        { lastPurgedLogId := a.purged
          lastLogId := (a.entries.getLast?.map C.logId).or a.purged } := by
  obtain ⟨s, hrun, h⟩ := (refines_empty (C := C)).run hC hcalls
  exact ⟨s, hrun, h.keys_eq hC, h.tryGetLogEntries hC, h.contiguous, h.getLogState hC⟩

section Lab

/-- Documents that are the values themselves. -/
def labCodec : LogCodec LogId (Entry Unit) Unit (Entry Unit ⊕ LogId) where
  index := LogId.index
  logId := Entry.logId
  entryVec e := some (.inl e)
  entrySlice doc := doc.getLeft?
  idVec id := some (.inr id)
  idSlice doc := doc.getRight?
  voteVec _ := some (.inr ⟨0, 0⟩)
  voteSlice _ := some ()

theorem lawful_labCodec : labCodec.Lawful where
  entry e := ⟨.inl e, rfl, rfl⟩
  id id := ⟨.inr id, rfl, rfl⟩
  vote _ := ⟨.inr ⟨0, 0⟩, rfl, rfl⟩

def labLogEntry (index term : UInt64) : Entry Unit := ⟨⟨index, term⟩, .blank⟩

/-- A conflict is cut off and written again, and a purge goes past the end of the log. -/
def labLogCalls : List (LogCall LogId (Entry Unit) Unit) :=
  [.append [labLogEntry 0 1, labLogEntry 1 1, labLogEntry 2 1], .truncate ⟨1, 1⟩,
    .append [labLogEntry 1 2], .purge ⟨5, 2⟩, .reopen, .append [labLogEntry 6 3, labLogEntry 7 3]]

theorem lab_raftLog_refines :
    ∃ s, Transition.run (RaftLogStore.perform labCodec) {} labLogCalls = some s ∧
      (s.logTable.getD ∅).keys.map UInt64.toNat = [6, 7] ∧
      s.reopen.getLogState labCodec = some ⟨some ⟨5, 2⟩, some ⟨7, 3⟩⟩ := by
  obtain ⟨s, hrun, hkeys, -, -, hstate⟩ := raftLog_refines labCodec lawful_labCodec labLogCalls
    (by decide)
  exact ⟨s, hrun, hkeys.trans (by decide), hstate.trans (by decide)⟩

end Lab

end Refinement

end Rill
