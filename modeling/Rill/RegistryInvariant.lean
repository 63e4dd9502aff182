import Rill.RegistryEffects

/-!
# Invariants of the registries

In every registry the index from static keys to ids is inverse to the entries, as long as no id is
handed out that the registry still holds. Ids stay below the next one, and belong to one network
each, as long as the counter does not run over. A consumed key names its own network and is never an
auth key again.
-/

namespace Rill

section UpdateFirst
variable {α : Type} {p : α → Bool} {f : α → α} {l : List α}

theorem forall_updateFirst {P : α → Prop} (h : ∀ a ∈ l, P a)
    (hf : ∀ a, l.find? p = some a → P a → P (f a)) : ∀ a ∈ updateFirst p f l, P a := by
  induction l with
  | nil => exact h
  | cons a l ih =>
    rw [updateFirst]
    by_cases ha : p a = true
    · rw [if_pos ha]
      refine List.forall_mem_cons.mpr ⟨?_, fun b hb => h b (List.mem_cons_of_mem a hb)⟩
      exact hf a (List.find?_cons_of_pos ha) (h a List.mem_cons_self)
    · rw [if_neg ha]
      refine List.forall_mem_cons.mpr ⟨h a List.mem_cons_self, ih ?_ fun b hb => hf b ?_⟩
      · exact fun b hb => h b (List.mem_cons_of_mem a hb)
      · rwa [List.find?_cons_of_neg ha]

/-- The changed element keeps its relation to the others, before and behind it. -/
theorem pairwise_updateFirst {R : α → α → Prop} (h : l.Pairwise R)
    (hf : ∀ a, l.find? p = some a → ∀ b ∈ l, (R a b → R (f a) b) ∧ (R b a → R b (f a))) :
    (updateFirst p f l).Pairwise R := by
  induction l with
  | nil => exact h
  | cons a l ih =>
    obtain ⟨ha, hl⟩ := List.pairwise_cons.mp h
    rw [updateFirst]
    by_cases hpa : p a = true
    · rw [if_pos hpa]
      refine List.pairwise_cons.mpr ⟨fun b hb => ?_, hl⟩
      exact (hf a (List.find?_cons_of_pos hpa) b (List.mem_cons_of_mem a hb)).1 (ha b hb)
    · rw [if_neg hpa]
      have hfind : ∀ b, l.find? p = some b → (a :: l).find? p = some b := fun b hb => by
        rwa [List.find?_cons_of_neg hpa]
      refine List.pairwise_cons.mpr ⟨?_, ih hl fun b hb d hd => ?_⟩
      · refine forall_updateFirst ha fun b hb hab => ?_
        exact (hf b (hfind b hb) a List.mem_cons_self).2 hab
      · exact hf b (hfind b hb) d (List.mem_cons_of_mem a hd)

end UpdateFirst

namespace Registry
variable {reg : Registry}

/-- The index of keys and the entries are inverse to each other. -/
structure Inverse (reg : Registry) : Prop where
  index_of_entry : ∀ (id : UInt32) (e : NodeEntry), reg.entries[id]? = some e →
    reg.pubkeys[e.staticPubkey]? = some id
  entry_of_index : ∀ (key : Key32) (id : UInt32), reg.pubkeys[key]? = some id →
    ∃ e, reg.entries[id]? = some e ∧ e.staticPubkey = key

theorem consume_eq (reg : Registry) (authKey : Text) (spec : AuthKeySpec) :
    (reg.consume authKey spec).entries = reg.entries ∧
      (reg.consume authKey spec).pubkeys = reg.pubkeys ∧
      (reg.consume authKey spec).networkId = reg.networkId := by
  rw [consume]
  split_ifs
  · exact ⟨rfl, rfl, rfl⟩
  · exact ⟨rfl, rfl, rfl⟩

theorem getElem?_admits (reg : Registry) (e : NodeEntry) (authKey : Text) (spec : AuthKeySpec)
    (id : UInt32) : ((reg.insertEntry e).consume authKey spec).entries[id]? =
      if e.nodeId = id then some e else reg.entries[id]? := by
  rw [((reg.insertEntry e).consume_eq authKey spec).1, insertEntry, Table.getElem?_insert]

theorem Inverse.congr {reg' : Registry} (h : reg.Inverse) (hentries : reg'.entries = reg.entries)
    (hpubkeys : reg'.pubkeys = reg.pubkeys) : reg'.Inverse := by
  constructor
  · rw [hentries, hpubkeys]
    exact h.index_of_entry
  · rw [hentries, hpubkeys]
    exact h.entry_of_index

theorem inverse_new (networkId : UInt32) : (Registry.new networkId).Inverse := by
  constructor
  · intro id e he
    simp [Registry.new] at he
  · intro key id hid
    simp [Registry.new] at hid

theorem Inverse.insertEntry (h : reg.Inverse) {e : NodeEntry} (hid : reg.entries[e.nodeId]? = none)
    (hkey : reg.pubkeys[e.staticPubkey]? = none) : (reg.insertEntry e).Inverse := by
  constructor
  · intro id e' he'
    rw [Registry.insertEntry, Table.getElem?_insert] at he'
    rw [Registry.insertEntry, Table.getElem?_insert]
    split_ifs at he' with hsame
    · cases he'
      rw [if_pos rfl, hsame]
    · have hindex := h.index_of_entry id e' he'
      rw [if_neg, hindex]
      intro hk
      rw [← hk, hkey] at hindex
      cases hindex
  · intro key id hindex
    rw [Registry.insertEntry, Table.getElem?_insert] at hindex
    simp only [Registry.insertEntry, Table.getElem?_insert]
    split_ifs at hindex with hk
    · cases hindex
      exact ⟨e, if_pos rfl, hk⟩
    · obtain ⟨e', he', hkey'⟩ := h.entry_of_index key id hindex
      refine ⟨e', ?_, hkey'⟩
      rw [if_neg, he']
      rintro rfl
      rw [hid] at he'
      cases he'

theorem revoke_eq {nodeId : UInt32} {e : NodeEntry} (he : reg.entries[nodeId]? = some e) :
    (reg.revoke nodeId).entries = reg.entries.erase nodeId ∧
      (reg.revoke nodeId).pubkeys = reg.pubkeys.erase e.staticPubkey := by
  rw [revoke]
  split
  · rename_i hnone
    rw [he] at hnone
    nomatch hnone
  · rename_i e' he'
    cases he.symm.trans he'
    exact ⟨rfl, rfl⟩

theorem revoke_of_none {nodeId : UInt32} (h : reg.entries[nodeId]? = none) :
    reg.revoke nodeId = reg := by
  rw [revoke]
  split
  · rfl
  · rename_i e he
    rw [h] at he
    nomatch he

theorem revoke_networkId (reg : Registry) (nodeId : UInt32) :
    (reg.revoke nodeId).networkId = reg.networkId := by
  rw [revoke]
  split <;> rfl

theorem revoke_consumed (reg : Registry) (nodeId : UInt32) :
    (reg.revoke nodeId).consumedOneTime = reg.consumedOneTime ∧
      (reg.revoke nodeId).authKeys = reg.authKeys := by
  rw [revoke]
  split <;> exact ⟨rfl, rfl⟩

theorem getElem?_revoke (reg : Registry) (nodeId id : UInt32) :
    (reg.revoke nodeId).entries[id]? = if nodeId = id then none else reg.entries[id]? := by
  cases he : reg.entries[nodeId]? with
  | none =>
    rw [revoke_of_none he]
    split_ifs with hid
    · rw [← hid, he]
    · rfl
  | some e => rw [(revoke_eq he).1, Table.getElem?_erase]

theorem Inverse.revoke (h : reg.Inverse) (nodeId : UInt32) : (reg.revoke nodeId).Inverse := by
  cases he : reg.entries[nodeId]? with
  | none => rwa [revoke_of_none he]
  | some e =>
    obtain ⟨hentries, hpubkeys⟩ := revoke_eq he
    have hown := h.index_of_entry nodeId e he
    constructor
    · intro id e' he'
      rw [hentries, Table.getElem?_erase] at he'
      split_ifs at he' with hid
      have hindex := h.index_of_entry id e' he'
      rw [hpubkeys, Table.getElem?_erase_of_ne, hindex]
      intro hk
      rw [← hk, hown] at hindex
      exact hid (Option.some.inj hindex)
    · intro key id hindex
      rw [hpubkeys, Table.getElem?_erase] at hindex
      split_ifs at hindex with hk
      obtain ⟨e', he', hkey'⟩ := h.entry_of_index key id hindex
      refine ⟨e', ?_, hkey'⟩
      rw [hentries, Table.getElem?_erase_of_ne, he']
      rintro rfl
      cases he.symm.trans he'
      exact hk hkey'

end Registry

/-- The entries of a network carry its id, and a consumed key names it and is out of use. -/
structure Seat.Sound (s : Seat) : Prop where
  registry : s.registry.networkId = s.networkId
  networkId : ∀ (id : UInt32) (e : NodeEntry), s.registry.entries[id]? = some e →
    e.networkId = s.networkId
  consumed : ∀ key ∈ s.registry.consumedOneTime, s.registry.authKeys[key]? = none ∧
    ∃ rest, AuthKey.parse key = .ok (s.name, rest)

theorem lt_succ_of_room {next : UInt32} (h : next.toNat + 1 < 2 ^ 32) : next < next + 1 := by
  rw [UInt32.lt_iff_toNat_lt, UInt32.toNat_add]
  simp only [UInt32.reduceToNat]
  omega

namespace Roll
variable {r r' : Roll} {change : RollChange}

def Fresh (r : Roll) : Prop := ∀ s ∈ r.seats, s.registry.entries[r.nextNodeId]? = none

theorem Step.forall_seats {P : Seat → Prop} (h : r.Step change r') (hP : ∀ s ∈ r.seats, P s)
    (hadmits : ∀ s ∈ r.seats, ∀ authKey spec e, r.Admission authKey spec e s → P s →
      P { s with registry := (s.registry.insertEntry e).consume authKey spec })
    (hrevoke : ∀ s ∈ r.seats, ∀ nodeId, P s →
      P { s with registry := s.registry.revoke nodeId })
    (hconfigure : ∀ s ∈ r.seats, ∀ f, Registry.Reconfigures f → P s →
      P { s with registry := f s.registry }) : ∀ s ∈ r'.seats, P s := by
  cases h with
  | keep => exact hP
  | admits hadm =>
    refine forall_updateFirst hP fun s hs => ?_
    cases hadm.found.symm.trans hs
    exact hadmits _ (List.mem_of_find?_eq_some hs) _ _ _ hadm
  | revoke nodeId =>
    exact forall_updateFirst hP fun s hs => hrevoke s (List.mem_of_find?_eq_some hs) nodeId
  | reconfigure name hf =>
    exact forall_updateFirst hP fun s hs => hconfigure s (List.mem_of_find?_eq_some hs) _ hf

theorem Step.sound (h : r.Step change r') (hs : ∀ s ∈ r.seats, s.Sound) :
    ∀ s ∈ r'.seats, s.Sound := by
  refine h.forall_seats hs ?_ ?_ ?_
  · intro s _ authKey spec e hadm hsound
    obtain ⟨-, -, hnetwork⟩ := (s.registry.insertEntry e).consume_eq authKey spec
    refine ⟨hnetwork.trans hsound.registry, fun id e' he' => ?_, fun key hkey => ?_⟩
    · rw [Registry.getElem?_admits] at he'
      split_ifs at he'
      · rw [← Option.some.inj he', hadm.networkId]
        exact hsound.registry
      · exact hsound.networkId id e' he'
    · simp only [Registry.consume] at hkey ⊢
      split_ifs at hkey ⊢ with hpolicy
      · rw [Table.getElem?_erase]
        rcases List.mem_append.mp hkey with hold | hnew
        · obtain ⟨hnone, hparse⟩ := hsound.consumed key hold
          exact ⟨by split_ifs <;> first | rfl | exact hnone, hparse⟩
        · obtain rfl := List.mem_singleton.mp hnew
          exact ⟨if_pos rfl, hadm.parsed⟩
      · exact hsound.consumed key hkey
  · intro s _ nodeId hsound
    obtain ⟨hconsumed, hkeys⟩ := s.registry.revoke_consumed nodeId
    refine ⟨(s.registry.revoke_networkId nodeId).trans hsound.registry, fun id e he => ?_, ?_⟩
    · rw [Registry.getElem?_revoke] at he
      split_ifs at he
      exact hsound.networkId id e he
    · rw [hconsumed, hkeys]
      exact hsound.consumed
  · intro s _ f hf hsound
    refine ⟨(hf.networkId _).trans hsound.registry, ?_, fun key hkey => ?_⟩
    · rw [hf.entries]
      exact hsound.networkId
    · rw [hf.consumed] at hkey
      obtain ⟨hnone, hparse⟩ := hsound.consumed key hkey
      exact ⟨hf.authKeys _ key hkey hnone, hparse⟩

theorem Step.inverse (h : r.Step change r') (hs : ∀ s ∈ r.seats, s.registry.Inverse)
    (hfresh : ∀ authKey spec e, change = .admits authKey spec e → r.Fresh) :
    ∀ s ∈ r'.seats, s.registry.Inverse := by
  cases h with
  | keep => exact hs
  | @admits authKey spec e s hadm =>
    refine forall_updateFirst hs fun s' hs' hinv => ?_
    cases hadm.found.symm.trans hs'
    obtain ⟨hentries, hpubkeys, -⟩ := (s.registry.insertEntry e).consume_eq authKey spec
    refine (hinv.insertEntry ?_ hadm.unknown).congr hentries hpubkeys
    rw [hadm.nodeId]
    exact hfresh _ _ _ rfl s (List.mem_of_find?_eq_some hs')
  | revoke nodeId => exact forall_updateFirst hs fun s _ hinv => hinv.revoke nodeId
  | reconfigure name hf =>
    exact forall_updateFirst hs fun s _ hinv => hinv.congr (hf.entries _) (hf.pubkeys _)

def Apart (r : Roll) : Prop :=
  r.seats.Pairwise fun s t => ∀ id : UInt32, s.registry.entries[id]?.isSome →
    t.registry.entries[id]? = none

theorem Step.apart (h : r.Step change r') (hr : r.Apart)
    (hfresh : ∀ authKey spec e, change = .admits authKey spec e → r.Fresh) : r'.Apart := by
  cases h with
  | keep => exact hr
  | @admits authKey spec e s hadm =>
    have hnew := hfresh _ _ _ rfl
    refine pairwise_updateFirst hr fun s' hs' t ht => ?_
    cases hadm.found.symm.trans hs'
    simp only [Registry.getElem?_admits, hadm.nodeId]
    constructor
    · intro hst id hid
      split_ifs at hid with heq
      · rw [← heq]
        exact hnew t ht
      · exact hst id hid
    · intro hts id hid
      rw [if_neg, hts id hid]
      rintro rfl
      rw [hnew t ht] at hid
      nomatch hid
  | revoke nodeId =>
    refine pairwise_updateFirst hr fun s _ t _ => ?_
    simp only [Registry.getElem?_revoke]
    constructor
    · intro hst id hid
      split_ifs at hid with heq
      · nomatch hid
      · exact hst id hid
    · intro hts id hid
      rw [hts id hid, ite_self]
  | reconfigure name hf =>
    refine pairwise_updateFirst hr fun s _ t _ => ?_
    rw [hf.entries]
    exact ⟨fun h => h, fun h => h⟩

/-- No static key is registered in two networks. -/
def KeysApart (r : Roll) : Prop :=
  r.seats.Pairwise fun s t => ∀ key : Key32, s.registry.pubkeys[key]?.isSome →
    t.registry.pubkeys[key]? = none

/-- Every registered id has been handed out. -/
def Below (r : Roll) : Prop :=
  ∀ s ∈ r.seats, ∀ id : UInt32, s.registry.entries[id]?.isSome → id < r.nextNodeId

theorem Below.fresh (h : r.Below) : r.Fresh := by
  intro s hs
  cases he : s.registry.entries[r.nextNodeId]? with
  | none => rfl
  | some e => exact absurd (h s hs r.nextNodeId (by rw [he]; rfl)) (UInt32.lt_irrefl _)

theorem Step.below (h : r.Step change r') (hr : r.Below)
    (hroom : ∀ authKey spec e, change = .admits authKey spec e → r.nextNodeId < r.nextNodeId + 1) :
    r'.Below := by
  cases h with
  | keep => exact hr
  | @admits authKey spec e s hadm =>
    have hnext := hroom _ _ _ rfl
    have hold : ∀ s ∈ r.seats, ∀ id : UInt32, s.registry.entries[id]?.isSome →
        id < r.nextNodeId + 1 := fun s hs id hid => UInt32.lt_trans (hr s hs id hid) hnext
    refine forall_updateFirst hold fun s' hs' hs₁ id hid => ?_
    cases hadm.found.symm.trans hs'
    simp only [Registry.getElem?_admits, hadm.nodeId] at hid
    split_ifs at hid with heq
    · rwa [← heq]
    · exact hs₁ id hid
  | revoke nodeId =>
    refine forall_updateFirst hr fun s _ hs id hid => ?_
    simp only [Registry.getElem?_revoke] at hid
    split_ifs at hid with heq
    · nomatch hid
    · exact hs id hid
  | reconfigure name hf =>
    refine forall_updateFirst hr fun s _ hs id hid => ?_
    rw [hf.entries] at hid
    exact hs id hid

theorem Step.nextNodeId_admits {authKey : Text} {spec : AuthKeySpec} {e : NodeEntry}
    (h : r.Step (.admits authKey spec e) r') : r'.nextNodeId = r.nextNodeId + 1 := by
  cases h with
  | admits hadm => rfl

theorem Step.nextNodeId_eq (h : r.Step change r')
    (hne : ∀ authKey spec e, change ≠ .admits authKey spec e) : r'.nextNodeId = r.nextNodeId := by
  cases h with
  | keep => rfl
  | admits hadm => exact absurd rfl (hne _ _ _)
  | revoke nodeId => rfl
  | reconfigure name hf => rfl

theorem Step.labels (h : r.Step change r') :
    r'.seats.map (fun s => (s.name, s.networkId)) = r.seats.map fun s => (s.name, s.networkId) := by
  cases h with
  | keep => rfl
  | admits hadm =>
    refine map_updateFirst_of_eq ?_ r.seats
    exact fun _ => rfl
  | revoke nodeId =>
    refine map_updateFirst_of_eq ?_ r.seats
    exact fun _ => rfl
  | reconfigure name hf =>
    refine map_updateFirst_of_eq ?_ r.seats
    exact fun _ => rfl

end Roll

end Rill
