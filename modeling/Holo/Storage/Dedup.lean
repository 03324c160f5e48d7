/-
Holo.Storage.Dedup — the dedup index: which stored blob has which content.

An entry names a blob by the identity of its content (fingerprint, checksum, length) and
counts the active block map records that use it.

Main results:
* `upsertDedupEntry_spec`, `insertDedupCollisionEntry_spec`: one entry is put over the
  table: a hit's entry with one more reference, or a new entry;
* `decrementRefCounts_spec`: each occurrence takes one reference away;
* `rebuildRefCounts_spec`: every count is the number of occurrences.
-/
import Holo.Storage.MapLookup

namespace Holo.Storage

open Lib Program List

/-! ## §1. The functions of the source. -/

/-- `identity_key_for`. -/
def DedupIndexEntry.identityKey (e : DedupIndexEntry) : Nat × Nat × Nat × Nat :=
  (e.fingerprintHi, e.fingerprintLo, e.payloadChecksum, e.logicalLen)

/-- `fingerprint_key_for`. -/
def DedupIndexEntry.fingerprintKey (e : DedupIndexEntry) : Nat × Nat :=
  (e.fingerprintHi, e.fingerprintLo)

inductive DedupLookup where
  | hit (e : DedupIndexEntry)
  | collision
  | miss
  deriving Repr, DecidableEq

inductive DedupUpsertResult where
  | hit (e : DedupIndexEntry)
  | inserted (e : DedupIndexEntry)
  | collisionInserted (e : DedupIndexEntry)
  deriving Repr, DecidableEq

/-- The entry `identity_index` holds for a key: the last one with it. -/
def findIdentity (entries : List DedupIndexEntry) (key : Nat × Nat × Nat × Nat) :
    Option DedupIndexEntry :=
  entries.reverse.find? (fun e => decide (e.identityKey = key))

section

variable (env : Env)

def loadDedupIndex : StorageM (List DedupIndexEntry) := do
  let c ← ensureCacheFresh env dedupSlot
  return c.records

def lookupIdentity (fpHi fpLo payloadChecksum logicalLen : Nat) :
    StorageM DedupLookup := do
  let c ← ensureCacheFresh env dedupSlot
  match findIdentity c.records (fpHi, fpLo, payloadChecksum, logicalLen) with
  | some e => return .hit e
  | none =>
    if c.records.any (fun e => decide (e.fingerprintKey = (fpHi, fpLo))) then return .collision
    else return .miss

section

variable (refs : List Nat) (e : DedupIndexEntry) (entries : List DedupIndexEntry)

def persistDedupEntries : StorageM Unit :=
  persistLog env dedupSlot (countSequence entries) entries

section

variable (c : CachedLog DedupIndexEntry) (asked : DedupIndexEntry)

/-- `ensure_log_format_cached`, and the entry it leaves. -/
def ensureDedupLogFormatCached : StorageM (CachedLog DedupIndexEntry) := do
  if c.logFormat ∨ c.records = [] then return c
  else
    persistDedupEntries env c.records
    let w ← get
    match w.mem.dedup with
    | some c' => return c'
    | none => throw (.notFound "dedup cache not initialized")

/-- The entry of a hit, with one more reference. -/
def DedupIndexEntry.bump (e asked : DedupIndexEntry) : DedupIndexEntry :=
  { e with
    refCount := e.refCount + 1
    identityVersion :=
      if e.identityVersion = 0 ∧ asked.identityVersion ≠ 0 then asked.identityVersion
      else e.identityVersion }

/-- The entry in the place of the one with its id. -/
def replaceEntry : List DedupIndexEntry :=
  modifyFirst (fun x => decide (x.entryId = e.entryId)) (fun _ => e) entries

/-- Append a new entry under the next id. -/
def insertDedupEntry : StorageM DedupIndexEntry := do
  let next := dedupLog.nextId c.records
  check (next = u64Max) dedupLog.idSpaceExhausted
  let entry := { asked with entryId := next }
  appendLog env dedupSlot [entry]
  let w ← get
  setCached dedupSlot (restamped env dedupSlot c (c.records ++ [entry]) w.disk.dedup)
  return entry

def upsertDedupEntry : StorageM DedupUpsertResult := do
  let c ← ensureCacheFresh env dedupSlot
  let c ← ensureDedupLogFormatCached env c
  match findIdentity c.records asked.identityKey with
  | some e =>
    check (checkedAdd32 e.refCount 1 = none) (.conflict "dedup refcount overflow")
    let hit := e.bump asked
    appendLog env dedupSlot [hit]
    let w ← get
    setCached dedupSlot (restamped env dedupSlot c (replaceEntry hit c.records) w.disk.dedup)
    return .hit hit
  | none =>
    let sawCollision := c.records.any (fun e => decide (e.fingerprintKey = asked.fingerprintKey))
    let entry ← insertDedupEntry env c asked
    if sawCollision then return .collisionInserted entry else return .inserted entry

def insertDedupCollisionEntry : StorageM DedupIndexEntry := do
  let c ← ensureCacheFresh env dedupSlot
  let c ← ensureDedupLogFormatCached env c
  insertDedupEntry env c asked

end

/-- The loop of `decrement_ref_counts`: the entries as it leaves them, and the updated copies or
the error it stopped with. -/
def decrementLoop : List Nat → List DedupIndexEntry →
    List DedupIndexEntry × Except StorageError (List DedupIndexEntry)
  | [], entries => (entries, .ok [])
  | id :: ids, entries =>
    match entries.find? (fun e => decide (e.entryId = id)) with
    | none => (entries, .error (.notFound "dedup entry not found"))
    | some e =>
      if e.refCount = 0 then (entries, .error (.conflict "dedup refcount underflow"))
      else
        let e' := { e with refCount := e.refCount - 1 }
        match decrementLoop ids (replaceEntry e' entries) with
        | (entries', .ok us) => (entries', .ok (e' :: us))
        | (entries', .error err) => (entries', .error err)

def decrementRefCounts (ids : List Nat) : StorageM (List DedupIndexEntry) := do
  if ids = [] then return []
  else
    let c ← ensureCacheFresh env dedupSlot
    let c ← ensureDedupLogFormatCached env c
    let (entries, outcome) := decrementLoop ids c.records
    -- the cached entries are changed before anything is appended
    setCached dedupSlot { c with records := entries }
    let updated ← ofExcept outcome
    appendLog env dedupSlot updated
    let w ← get
    setCached dedupSlot (restamped env dedupSlot c entries w.disk.dedup)
    return updated

/-- `ensure_log_format`. -/
def ensureDedupLogFormat : StorageM Unit := do
  let w ← get
  let _ ← ofExcept (w.disk.dedup.readBounded dedupLog)
  if w.disk.dedup.records.isSome then return ()
  else persistDedupEntries env entries

/-- The entry with the count `rebuild_ref_counts` gives it. -/
def DedupIndexEntry.recount : DedupIndexEntry :=
  { e with refCount := refs.count e.entryId }

/-- The entries `rebuild_ref_counts` appends: those whose count changes. -/
def recounted : List DedupIndexEntry :=
  (entries.filter (fun e => decide (e.refCount ≠ refs.count e.entryId))).map (·.recount refs)

/-- The last part of `rebuild_ref_counts`, once the log has its tag. -/
def appendRecounted : StorageM Nat := do
  let changed := recounted refs entries
  if changed = [] then
    updateCache dedupSlot (entries.map (·.recount refs))
    return changed.length
  else
    appendLog env dedupSlot changed
    updateCache dedupSlot (entries.map (·.recount refs))
    return changed.length

def rebuildRefCounts : StorageM Nat := do
  let entries ← loadDedupIndex env
  check (∃ id ∈ refs, u32Max < refs.count id) (.conflict "dedup refcount overflow")
  ensureDedupLogFormat env entries
  appendRecounted env refs entries

end

end

/-! ## §2. One entry put over the table. -/

/-- The table after an upsert of `asked` gets `e`: a hit bumped, or `asked` under a new id. -/
inductive DedupChange (table : List DedupIndexEntry) (asked : DedupIndexEntry) :
    DedupIndexEntry → Prop where
  | bumped (e : DedupIndexEntry) (hmem : e ∈ table) (hkey : e.identityKey = asked.identityKey)
      (hcount : e.refCount < u32Max) : DedupChange table asked (e.bump asked)
  | new (id : Nat) (hpos : 0 < id) (hfresh : ∀ x ∈ table, x.entryId < id) :
      DedupChange table asked { asked with entryId := id }

variable {entries : List DedupIndexEntry} {key : Nat × Nat × Nat × Nat} {e asked : DedupIndexEntry}
  {env : Env} {w : World} {f : LogFile DedupIndexEntry} {c : CachedLog DedupIndexEntry}

theorem findIdentity_mem (h : findIdentity entries key = some e) :
    e ∈ entries ∧ e.identityKey = key := by
  refine ⟨mem_reverse.mp (mem_of_find?_eq_some h), ?_⟩
  simpa using find?_some h

variable {Q : CachedLog DedupIndexEntry → World → Prop} {E : StorageError → World → Prop}
  {es table : List DedupIndexEntry} {f' : LogFile DedupIndexEntry}

/-- On a coherent cache there is no untagged log to migrate. -/
theorem wp_ensureDedupLogFormatCached (h : CacheOk dedupLog f c) :
    wp (ensureDedupLogFormatCached env c) Q E w ↔ Q c w := by
  have hcond : c.logFormat = true ∨ c.records = [] := by
    cases hf : c.logFormat with
    | true => exact .inl rfl
    | false => exact .inr (h.untagged hf)
  unfold ensureDedupLogFormatCached
  rw [if_pos hcond, wp_pure]

theorem map_entryId_replaceEntry (e : DedupIndexEntry) (entries : List DedupIndexEntry) :
    (replaceEntry e entries).map (·.entryId) = entries.map (·.entryId) :=
  map_modifyFirst (fun a ha => by simpa [eq_comm] using ha) entries

theorem sortedBy_of_map_eq {a b : List DedupIndexEntry}
    (h : a.map (·.entryId) = b.map (·.entryId)) (hb : SortedBy (·.entryId) b) :
    SortedBy (·.entryId) a := by
  have : (a.map (·.entryId)).Pairwise (· ≤ ·) := by
    rw [h, pairwise_map]
    exact hb
  exact pairwise_map.mp this

/-- The dedup index was changed by putting `es` over it. -/
def DedupPut (env : Env) (w w' : World) (es : List DedupIndexEntry) : Prop :=
  ∃ f' c', SlotPut env dedupSlot w w' f' c' ∧ Holds dedupLog w.disk.dedup es f'

theorem DedupPut.of_cached {w w' : World}
    (h : DedupPut env (w.withCache dedupSlot c) w' es) :
    DedupPut env w w' es := by
  obtain ⟨f', c', hput, hholds⟩ := h
  exact ⟨f', c', hput.of_cached, hholds⟩

/-- The end of every change: records appended, and the cached entries that go with them. -/
theorem append_restamp_spec {w v : World} (hdisk : w.disk = v.disk)
    (hmem : ∀ x, dedupSlot.setCache w.mem x = dedupSlot.setCache v.mem x)
    (hfaults : w.faults = v.faults)
    (hperm : entries.Perm (latest (·.entryId) (v.disk.dedup.log ++ es)))
    (hsorted : SortedBy (·.entryId) entries) :
    wp (appendLog env dedupSlot es) (fun _ w' => DedupPut env v { w' with
        mem := dedupSlot.setCache w'.mem
          (some (restamped env dedupSlot c entries w'.disk.dedup)) } es)
      (fun _ w' => Interrupted dedupSlot es v w') w := by
  refine wp_mono (appendLog_spec (s := dedupSlot) (v := v) (g := v.disk.dedup) es
    (by rw [hdisk]; exact (dedupSlot.setFile_file _).symm) rfl (Holds.refl _ _)
    (hfaults ▸ Subset.refl _)) ?_ (fun _ _ h => h)
  rintro _ w' ⟨f', rfl, hf'⟩
  have hholds : Holds dedupLog v.disk.dedup es f' := hf' ▸ (Holds.refl _ _).appended es _
  refine ⟨f', restamped env dedupSlot c entries f', ⟨rfl, hmem _, ⟨rfl, ?_, ?_⟩,
    hfaults ▸ tail_subset _⟩, hholds⟩
  · exact ⟨hperm.trans hholds.table.symm, hsorted, fun h => absurd h (by simp [restamped])⟩
  by_cases ht : env.trustHotCache = true
  · exact .inl ht
  · right
    simp only [restamped, ht]
    rfl

theorem findIdentity_none (h : findIdentity entries key = none) :
    ∀ e ∈ entries, e.identityKey ≠ key := by
  intro e he hkey
  have := find?_eq_none.mp h e (mem_reverse.mpr he)
  simp [hkey] at this

/-- The newest entry with an identity. -/
structure Newest (table : List DedupIndexEntry) (key : Nat × Nat × Nat × Nat)
    (e : DedupIndexEntry) : Prop where
  mem : e ∈ table
  identity : e.identityKey = key
  newest : ∀ x ∈ table, x.identityKey = key → x.entryId ≤ e.entryId

theorem Newest.unique {e e' : DedupIndexEntry} (h : Newest table key e) (h' : Newest table key e')
    (hnd : (table.map (·.entryId)).Nodup) : e = e' :=
  inj_on_of_nodup_map hnd h.mem h'.mem
    (le_antisymm (h'.newest e h.mem h.identity) (h.newest e' h'.mem h'.identity))

theorem findIdentity_newest (hok : CacheOk dedupLog f c) (h : findIdentity c.records key = some e) :
    Newest (f.table dedupLog) key e := by
  obtain ⟨hmem, hkey⟩ := findIdentity_mem h
  refine ⟨hok.mem_iff.mp hmem, hkey, fun x hx hxkey => ?_⟩
  exact hok.sorted.le_of_find_reverse h (hok.mem_iff.mpr hx) (by simpa using hxkey)

/-- **Looking an identity up** finds the newest entry of the table with it, if there is one. -/
theorem lookupIdentity_spec {hi lo sum len : Nat} (hcoh : Coherent dedupSlot w.disk w.mem) :
    wp (lookupIdentity env hi lo sum len)
      (fun found w' => ∃ c, w' = w.withCache dedupSlot c ∧
        Ready env dedupSlot w'.disk w'.mem c ∧
        (∀ e, found = .hit e → Newest (w.disk.dedup.table dedupLog) (hi, lo, sum, len) e) ∧
        ((∀ e, found ≠ .hit e) → ∀ e ∈ w.disk.dedup.table dedupLog,
          e.identityKey ≠ (hi, lo, sum, len)))
      (fun _ w' => w' = w ∧ ¬ w.disk.dedup.Loadable dedupLog) w := by
  refine hcoh.bind_fresh (fun hbad _ => ⟨rfl, hbad⟩) fun c hready => ?_
  have hok : CacheOk dedupLog w.disk.dedup c := hready.ok
  split
  next e hfind =>
    refine ⟨c, rfl, hready, fun e' he' => ?_, fun hno => absurd rfl (hno e)⟩
    injection he' with he'
    subst he'
    exact findIdentity_newest hok hfind
  next hfind =>
    have hnone : ∀ e ∈ w.disk.dedup.table dedupLog, e.identityKey ≠ (hi, lo, sum, len) :=
      fun e he => findIdentity_none hfind e (hok.mem_iff.mpr he)
    split
    next => exact ⟨c, rfl, hready, fun e he => absurd he (by simp), fun _ => hnone⟩
    next => exact ⟨c, rfl, hready, fun e he => absurd he (by simp), fun _ => hnone⟩

/-- Why the dedup index refuses a change. -/
def DedupRefused (f : LogFile DedupIndexEntry) : Prop :=
  ¬ f.Loadable dedupLog ∨ (∃ x ∈ f.table dedupLog, u32Max ≤ x.refCount) ∨
    ∃ x ∈ f.table dedupLog, u64Max ≤ x.entryId + 1

/-- Where a change stops: in its append, or before it. -/
def DedupStopped (asked : DedupIndexEntry) (w w' : World) : Prop :=
  (∃ e, DedupChange (w.disk.dedup.table dedupLog) asked e ∧ Interrupted dedupSlot [e] w w') ∨
    (w'.disk = w.disk ∧ DedupRefused w.disk.dedup)

/-- A new entry goes to the end of the cached entries. -/
theorem insertDedupEntry_spec (hready : Ready env dedupSlot w.disk w.mem c) :
    wp (insertDedupEntry env c asked)
      (fun e w' => DedupPut env w w' [e] ∧ ∃ id, e = { asked with entryId := id } ∧ 0 < id ∧
        ∀ x ∈ w.disk.dedup.table dedupLog, x.entryId < id)
      (fun _ w' => DedupStopped asked w w') w := by
  have hok : CacheOk dedupLog w.disk.dedup c := hready.ok
  unfold insertDedupEntry
  simp only [wp_bind, wp_check, wp_get, setCached, wp_modify, wp_pure]
  refine ⟨fun hfull => ?_, fun hnext => ?_⟩
  · obtain ⟨x, hx, hbig⟩ := LogKind.exists_of_nextId_eq hfull
    exact .inr ⟨rfl, .inr (.inr ⟨x, hok.mem_iff.mp hx, hbig⟩)⟩
  obtain ⟨hpos, -, habove⟩ := LogKind.nextId_fresh hnext
  have hfresh : ∀ x ∈ w.disk.dedup.table dedupLog, x.entryId < dedupLog.nextId c.records :=
    fun x hx => habove x (hok.mem_iff.mpr hx)
  -- a fresh id supersedes nothing
  have hperm : (c.records ++ [{ asked with entryId := dedupLog.nextId c.records }]).Perm
      (latest (·.entryId) (w.disk.dedup.log ++
        [{ asked with entryId := dedupLog.nextId c.records }])) := by
    rw [latest_append_fresh]
    · exact hok.perm.append_right _
    · intro x hx hid
      obtain ⟨y, hy, hyid⟩ := exists_mem_latest (·.entryId) hx
      exact (hfresh y hy).ne (hyid.trans hid)
  have hsorted : SortedBy (·.entryId)
      (c.records ++ [{ asked with entryId := dedupLog.nextId c.records }]) := by
    refine pairwise_append.mpr ⟨hok.sorted, by simp, fun x hx y hy => ?_⟩
    rw [mem_singleton] at hy
    rw [hy]
    exact (habove x hx).le
  refine wp_mono (append_restamp_spec (v := w) (c := c) rfl (fun _ => rfl) rfl hperm hsorted) ?_ ?_
  · exact fun _ w' h => ⟨h, _, rfl, hpos, hfresh⟩
  · exact fun _ w' h => .inl ⟨_, .new _ hpos hfresh, h⟩

/-- What an upsert reports. -/
def UpsertReports (table : List DedupIndexEntry) (asked e : DedupIndexEntry) :
    DedupUpsertResult → Prop
  | .hit e' => e' = e ∧ ∃ x, Newest table asked.identityKey x ∧ x.refCount < u32Max ∧
      e = x.bump asked
  | .inserted e' => e' = e ∧ (∀ x ∈ table, x.identityKey ≠ asked.identityKey) ∧
      ∃ id, e = { asked with entryId := id } ∧ 0 < id ∧ ∀ x ∈ table, x.entryId < id
  | .collisionInserted e' => e' = e ∧ (∀ x ∈ table, x.identityKey ≠ asked.identityKey) ∧
      ∃ id, e = { asked with entryId := id } ∧ 0 < id ∧ ∀ x ∈ table, x.entryId < id

/-- **Upserting**: a hit's entry gets one more reference, anything else a new entry. -/
theorem upsertDedupEntry_spec (hcoh : Coherent dedupSlot w.disk w.mem) :
    wp (upsertDedupEntry env asked) (fun res w' => ∃ e, DedupPut env w w' [e] ∧
        UpsertReports (w.disk.dedup.table dedupLog) asked e res)
      (fun _ w' => DedupStopped asked w w') w := by
  refine hcoh.bind_fresh (fun hbad _ => .inr ⟨rfl, .inl hbad⟩) fun c hready => ?_
  have hok : CacheOk dedupLog w.disk.dedup c := hready.ok
  rw [wp_bind, wp_ensureDedupLogFormatCached hok]
  split
  next e hfind =>
    -- the payload is known: its entry gets one reference more
    obtain ⟨hmem, hkey⟩ := findIdentity_mem hfind
    have hmem' := hok.mem_iff.mp hmem
    simp only [wp_bind, wp_check, wp_get, setCached, wp_modify, wp_pure]
    refine ⟨fun hover => ?_, fun hroom => ?_⟩
    · refine .inr ⟨rfl, .inr (.inl ⟨e, hmem', ?_⟩)⟩
      simp only [checkedAdd32, ite_eq_right_iff, reduceCtorEq, imp_false, not_le] at hover
      omega
    have hcount : e.refCount < u32Max := by grind [checkedAdd32]
    have hid : (e.bump asked).entryId = e.entryId := rfl
    have hperm : (replaceEntry (e.bump asked) c.records).Perm
        (latest (·.entryId) (w.disk.dedup.log ++ [e.bump asked])) :=
      modifyFirst_perm_latest hok.perm (mem_map.mpr ⟨e, hmem, hid.symm⟩)
    have hsorted : SortedBy (·.entryId) (replaceEntry (e.bump asked) c.records) :=
      sortedBy_of_map_eq (map_entryId_replaceEntry _ _) hok.sorted
    refine wp_mono (append_restamp_spec (v := w) (c := c) rfl (fun _ => rfl) rfl hperm
      hsorted) ?_ ?_
    · exact fun _ w' h => ⟨_, h, rfl, e, findIdentity_newest hok hfind, hcount, rfl⟩
    · exact fun _ w' h => .inl ⟨_, .bumped e hmem' hkey hcount, h⟩
  next hfind =>
    refine wp.bind (insertDedupEntry_spec hready) ?_ fun _ _ h =>
      h.imp_left (Exists.imp fun _ => And.imp_right Interrupted.of_cached)
    rintro e w' ⟨hput, id, he, hpos, hfresh⟩
    have hput' : DedupPut env w w' [e] := hput.of_cached
    have hnone : ∀ x ∈ w.disk.dedup.table dedupLog, x.identityKey ≠ asked.identityKey :=
      fun x hx => findIdentity_none hfind x (hok.mem_iff.mpr hx)
    split
    next => exact ⟨e, hput', rfl, hnone, id, he, hpos, hfresh⟩
    next => exact ⟨e, hput', rfl, hnone, id, he, hpos, hfresh⟩

/-- **A collision** gets an entry of its own. -/
theorem insertDedupCollisionEntry_spec (hcoh : Coherent dedupSlot w.disk w.mem) :
    wp (insertDedupCollisionEntry env asked)
      (fun e w' => DedupPut env w w' [e] ∧ ∃ id, e = { asked with entryId := id } ∧ 0 < id ∧
        ∀ x ∈ w.disk.dedup.table dedupLog, x.entryId < id)
      (fun _ w' => DedupStopped asked w w') w := by
  refine hcoh.bind_fresh (fun hbad _ => .inr ⟨rfl, .inl hbad⟩) fun c hready => ?_
  have hok : CacheOk dedupLog w.disk.dedup c := hready.ok
  rw [wp_bind, wp_ensureDedupLogFormatCached hok]
  refine wp_mono (insertDedupEntry_spec hready) (fun _ _ h => ⟨h.1.of_cached, h.2⟩) fun _ _ h => ?_
  exact h.imp_left (Exists.imp fun _ => And.imp_right Interrupted.of_cached)

/-! ## §3. Taking references away. -/

theorem find_entry (hnd : (table.map (·.entryId)).Nodup) (he : e ∈ table) :
    table.find? (fun x => decide (x.entryId = e.entryId)) = some e := by
  cases hf : table.find? (fun x => decide (x.entryId = e.entryId)) with
  | none =>
    have := find?_eq_none.mp hf e he
    simp at this
  | some x =>
    have hx : x.entryId = e.entryId := by simpa using find?_some hf
    rw [inj_on_of_nodup_map hnd (mem_of_find?_eq_some hf) he hx]

/-- An entry with a different reference count and all else equal. -/
def DedupIndexEntry.withRefs (e : DedupIndexEntry) (n : Nat) : DedupIndexEntry :=
  { e with refCount := n }

theorem mem_replaceEntry (hnd : (entries.map (·.entryId)).Nodup)
    (hmem : e.entryId ∈ entries.map (·.entryId)) {x : DedupIndexEntry} :
    x ∈ replaceEntry e entries ↔ x = e ∨ (x ∈ entries ∧ x.entryId ≠ e.entryId) := by
  have hx := (modifyFirst_perm DedupIndexEntry.entryId (r := e) hnd hmem).mem_iff (a := x)
  rw [mem_cons, mem_filter, decide_eq_true_eq] at hx
  exact hx

/-- **The loop**: it succeeds exactly on known entries with enough references; then the cached
entries are the table under the appended copies, each count lowered by its occurrences. -/
theorem decrementLoop_spec : ∀ (ids : List Nat) {entries log : List DedupIndexEntry},
    entries.Perm (latest (·.entryId) log) →
    (∀ e ∈ entries, ids.count e.entryId ≤ e.refCount) →
    (∀ id ∈ ids, ∃ e ∈ entries, e.entryId = id) →
    ∃ entries' us, decrementLoop ids entries = (entries', .ok us) ∧
      entries'.map (·.entryId) = entries.map (·.entryId) ∧
      entries'.Perm (latest (·.entryId) (log ++ us)) ∧
      (∀ e, e ∈ entries' ↔ ∃ x ∈ entries, e = x.withRefs (x.refCount - ids.count x.entryId))
  | [], entries, log, hperm, _, _ => by
    refine ⟨entries, [], rfl, rfl, by simpa using hperm, fun e => ?_⟩
    constructor
    · exact fun he => ⟨e, he, by simp [DedupIndexEntry.withRefs]⟩
    · rintro ⟨x, hx, rfl⟩
      simpa [DedupIndexEntry.withRefs] using hx
  | id :: ids, entries, log, hperm, hroom, hfound => by
    have hnd : (entries.map (·.entryId)).Nodup :=
      (hperm.map _).nodup_iff.mpr (latest_keys_nodup _ log)
    obtain ⟨e, he, rfl⟩ := hfound id mem_cons_self
    have hfind := find_entry hnd he
    have hcount := hroom e he
    rw [count_cons_self] at hcount
    have hmem : (e.withRefs (e.refCount - 1)).entryId ∈ entries.map (·.entryId) :=
      mem_map.mpr ⟨e, he, rfl⟩
    -- the table after the first reference is taken
    have hperm' : (replaceEntry (e.withRefs (e.refCount - 1)) entries).Perm
        (latest (·.entryId) (log ++ [e.withRefs (e.refCount - 1)])) :=
      modifyFirst_perm_latest hperm hmem
    have hmem_iff : ∀ x, x ∈ replaceEntry (e.withRefs (e.refCount - 1)) entries ↔
        x = e.withRefs (e.refCount - 1) ∨ (x ∈ entries ∧ x.entryId ≠ e.entryId) :=
      fun x => mem_replaceEntry hnd hmem
    have hkeys := map_entryId_replaceEntry (e.withRefs (e.refCount - 1)) entries
    obtain ⟨entries', us, hrun, hkeys', hperm'', hafter⟩ := decrementLoop_spec ids hperm'
      (fun x hx => by
        rcases (hmem_iff x).mp hx with rfl | ⟨hx, hne⟩
        · show ids.count e.entryId ≤ e.refCount - 1
          omega
        · have := hroom x hx
          rwa [count_cons_of_ne (Ne.symm hne)] at this)
      (fun id' hid' => by
        grind [mem_map_of_mem])
    refine ⟨entries', e.withRefs (e.refCount - 1) :: us, ?_, hkeys'.trans hkeys, ?_, fun x => ?_⟩
    · have hstep : decrementLoop ids (replaceEntry { e with refCount := e.refCount - 1 } entries) =
          (entries', .ok us) := hrun
      rw [decrementLoop, hfind]
      simp only
      rw [if_neg (by omega), hstep]
      rfl
    · rw [append_assoc, singleton_append] at hperm''
      exact hperm''
    rw [hafter]
    constructor
    · rintro ⟨y, hy, rfl⟩
      rcases (hmem_iff y).mp hy with rfl | ⟨hy, hne⟩
      · refine ⟨e, he, ?_⟩
        simp only [DedupIndexEntry.withRefs, count_cons_self]
        congr 1
        omega
      · exact ⟨y, hy, by rw [count_cons_of_ne (Ne.symm hne)]⟩
    rintro ⟨y, hy, rfl⟩
    by_cases hid : y.entryId = e.entryId
    · have : y = e := inj_on_of_nodup_map hnd hy he hid
      subst this
      refine ⟨y.withRefs (y.refCount - 1), (hmem_iff _).mpr (.inl rfl), ?_⟩
      simp only [DedupIndexEntry.withRefs, count_cons_self]
      congr 1
      omega
    · exact ⟨y, (hmem_iff y).mpr (.inr ⟨hy, hid⟩), by
        rw [count_cons_of_ne (Ne.symm hid)]⟩

/-- The table after the references are taken. -/
structure RefsTaken (ids : List Nat) (f f' : LogFile DedupIndexEntry) : Prop where
  mem_iff : ∀ e, e ∈ f'.table dedupLog ↔
    ∃ x ∈ f.table dedupLog, e = x.withRefs (x.refCount - ids.count x.entryId)
  sound : f.Sound dedupLog → f'.Sound dedupLog

/-- The table with some of the entries as before. -/
structure SameEntries (f f' : LogFile DedupIndexEntry) : Prop where
  perm : (f'.table dedupLog).Perm (f.table dedupLog)
  sound : f.Sound dedupLog → f'.Sound dedupLog

theorem Holds.sameEntries (h : Holds dedupLog f [] f') : SameEntries f f' := ⟨h.table_nil, h.sound⟩

/-- **Taking references away** lowers each count by its occurrences. -/
theorem decrementRefCounts_spec {ids : List Nat} (hcoh : Coherent dedupSlot w.disk w.mem)
    (hroom : ∀ e ∈ w.disk.dedup.table dedupLog, ids.count e.entryId ≤ e.refCount)
    (hfound : ∀ id ∈ ids, ∃ e ∈ w.disk.dedup.table dedupLog, e.entryId = id) :
    wp (decrementRefCounts env ids) (fun _ w' => ∃ f' c', w'.disk = dedupSlot.setFile w.disk f' ∧
        w'.mem = dedupSlot.setCache w.mem c' ∧ Coherent dedupSlot w'.disk w'.mem ∧
        w'.faults ⊆ w.faults ∧ RefsTaken ids w.disk.dedup f')
      (fun _ w' => (w.faults ≠ [] ∧ ∃ f', w'.disk = dedupSlot.setFile w.disk f' ∧
          (NoTorn w.faults → SameEntries w.disk.dedup f' ∨ RefsTaken ids w.disk.dedup f')) ∨
        (w'.disk = w.disk ∧ ¬ w.disk.dedup.Loadable dedupLog)) w := by
  unfold decrementRefCounts
  by_cases hnil : ids = []
  · rw [if_pos hnil, wp_pure]
    refine ⟨w.disk.dedup, w.mem.dedup, rfl, rfl, hcoh, Subset.refl _, ⟨fun e => ?_, fun h => h⟩⟩
    subst hnil
    constructor
    · exact fun he => ⟨e, he, by simp [DedupIndexEntry.withRefs]⟩
    · rintro ⟨x, hx, rfl⟩
      simpa [DedupIndexEntry.withRefs] using hx
  rw [if_neg hnil]
  refine hcoh.bind_fresh (fun hbad _ => .inr ⟨rfl, hbad⟩) fun c hready => ?_
  have hok : CacheOk dedupLog w.disk.dedup c := hready.ok
  rw [wp_bind, wp_ensureDedupLogFormatCached hok]
  -- every id has enough references, so that the loop runs through
  obtain ⟨entries, us, hrun, hkeys, hperm, hafter⟩ := decrementLoop_spec ids hok.perm
    (fun e he => hroom e (hok.mem_iff.mp he))
    (fun id hid => by
      obtain ⟨e, he, heid⟩ := hfound id hid
      exact ⟨e, hok.mem_iff.mpr he, heid⟩)
  have htaken : ∀ f', Holds dedupLog w.disk.dedup us f' → RefsTaken ids w.disk.dedup f' := by
    intro f' hholds
    refine ⟨fun e => ?_, hholds.sound⟩
    have he : e ∈ f'.table dedupLog ↔ e ∈ entries :=
      hholds.table.mem_iff.trans hperm.mem_iff.symm
    rw [he, hafter]
    simp only [hok.mem_iff]
  rw [hrun]
  simp only [wp_bind, setCached, wp_modify, wp_ofExcept, wp_get, wp_pure]
  refine ⟨fun us' h => ?_, fun e h => absurd h (by simp)⟩
  injection h with h
  subst h
  refine wp_mono (append_restamp_spec (v := w) (c := c) rfl (fun _ => rfl) rfl hperm
    (sortedBy_of_map_eq hkeys hok.sorted)) ?_ ?_
  · rintro _ w' ⟨f', c', hput, hholds⟩
    exact ⟨f', some c', hput.disk, hput.mem, hput.ready.coherent, hput.faults, htaken f' hholds⟩
  rintro _ w' ⟨hfault, f', hdisk, hholds⟩
  refine .inl ⟨hfault, f', hdisk, fun hno => ?_⟩
  rcases hholds hno with h | h
  · exact .inl h.sameEntries
  · exact .inr (htaken f' h)

/-! ## §4. Counting anew. -/

/-- The table with every count set to the number of occurrences. -/
structure Recounted (refs : List Nat) (f f' : LogFile DedupIndexEntry) : Prop where
  mem_iff : ∀ e, e ∈ f'.table dedupLog ↔ ∃ x ∈ f.table dedupLog, e = x.recount refs
  sound : f.Sound dedupLog → f'.Sound dedupLog

variable {refs : List Nat}

theorem mem_recounted {u : DedupIndexEntry} :
    u ∈ recounted refs entries ↔ ∃ x ∈ entries, x.refCount ≠ refs.count x.entryId ∧
      u = x.recount refs := by
  grind [recounted]

theorem recount_of_eq (h : e.refCount = refs.count e.entryId) : e.recount refs = e := by
  unfold DedupIndexEntry.recount
  rw [← h]

theorem map_entryId_recount (refs : List Nat) (entries : List DedupIndexEntry) :
    (entries.map (·.recount refs)).map (·.entryId) = entries.map (·.entryId) := by
  rw [map_map]
  rfl

/-- Putting the changed entries over the table sets every count. -/
theorem map_recount_perm {entries log : List DedupIndexEntry}
    (hperm : entries.Perm (latest (·.entryId) log)) :
    (entries.map (·.recount refs)).Perm (latest (·.entryId) (log ++ recounted refs entries)) := by
  have hnd : (entries.map (·.entryId)).Nodup :=
    (hperm.map _).nodup_iff.mpr (latest_keys_nodup _ log)
  have hmapnd : ((entries.map (·.recount refs)).map (·.entryId)).Nodup := by
    rw [map_entryId_recount]
    exact hnd
  have hchnd : ((recounted refs entries).map (·.entryId)).Nodup := by grind [recounted]
  rw [perm_ext_iff_of_nodup (Nodup.of_map _ hmapnd) (Nodup.of_map _ (latest_keys_nodup _ _))]
  intro e
  rw [mem_latest_append hchnd, mem_map]
  constructor
  · rintro ⟨x, hx, rfl⟩
    -- an entry whose count is right is not written again
    by_cases heq : x.refCount = refs.count x.entryId
    · refine .inr ⟨?_, fun y hy hid => ?_⟩
      · rw [recount_of_eq heq]
        exact hperm.mem_iff.mp hx
      · obtain ⟨z, hz, hne, rfl⟩ := mem_recounted.mp hy
        have : z = x := inj_on_of_nodup_map hnd hz hx hid
        exact hne (this ▸ heq)
    · exact .inl (mem_recounted.mpr ⟨x, hx, heq, rfl⟩)
  · rintro (h | ⟨h, hno⟩)
    · obtain ⟨x, hx, -, rfl⟩ := mem_recounted.mp h
      exact ⟨x, hx, rfl⟩
    · have he := hperm.mem_iff.mpr h
      refine ⟨e, he, recount_of_eq ?_⟩
      by_contra hne
      exact hno _ (mem_recounted.mpr ⟨e, he, hne, rfl⟩) rfl

/-- What counting anew leaves when it succeeds. -/
def RecountPut (env : Env) (refs : List Nat) (w w' : World) : Prop :=
  ∃ f' c', SlotPut env dedupSlot w w' f' c' ∧ Recounted refs w.disk.dedup f'

/-- What a failure of counting anew leaves. -/
def RecountFailed (refs : List Nat) (w w' : World) : Prop :=
  (w.faults ≠ [] ∧ ∃ f', w'.disk = dedupSlot.setFile w.disk f' ∧
      (NoTorn w.faults → SameEntries w.disk.dedup f' ∨ Recounted refs w.disk.dedup f')) ∨
    (w'.disk = w.disk ∧ ¬ w.disk.dedup.Loadable dedupLog)

/-- Putting the changed entries over the table is counting anew. -/
theorem Holds.recounted (hok : CacheOk dedupLog f c)
    (h : Holds dedupLog f (Holo.Storage.recounted refs c.records) f') : Recounted refs f f' := by
  refine ⟨fun e => ?_, h.sound⟩
  have he : e ∈ f'.table dedupLog ↔ e ∈ c.records.map (·.recount refs) :=
    h.table.mem_iff.trans (map_recount_perm hok.perm).mem_iff.symm
  rw [he, mem_map]
  constructor
  · rintro ⟨x, hx, rfl⟩
    exact ⟨x, hok.mem_iff.mp hx, rfl⟩
  · rintro ⟨x, hx, rfl⟩
    exact ⟨x, hok.mem_iff.mpr hx, rfl⟩

theorem appendRecounted_spec {w w1 : World} {f1 : LogFile DedupIndexEntry}
    (hok : CacheOk dedupLog w.disk.dedup c) (hdisk : w1.disk = dedupSlot.setFile w.disk f1)
    (hmem : ∀ x, dedupSlot.setCache w1.mem x = dedupSlot.setCache w.mem x)
    (hfaults : w1.faults ⊆ w.faults) (hholds : Holds dedupLog w.disk.dedup [] f1) :
    wp (appendRecounted env refs c.records) (fun _ w' => RecountPut env refs w w')
      (fun _ w' => RecountFailed refs w w') w1 := by
  have hsorted : SortedBy (·.entryId) (c.records.map (·.recount refs)) :=
    sortedBy_of_map_eq (map_entryId_recount refs c.records) hok.sorted
  -- the cache is written with the counts, whether or not the log had to grow
  have hcached : ∀ (w2 : World) (f2 : LogFile DedupIndexEntry),
      w2.disk = dedupSlot.setFile w.disk f2 →
      (∀ x, dedupSlot.setCache w2.mem x = dedupSlot.setCache w.mem x) →
      w2.faults ⊆ w.faults → Holds dedupLog w.disk.dedup (recounted refs c.records) f2 →
      RecountPut env refs w { w2 with
        mem := dedupSlot.setCache w2.mem
          (some ⟨w2.disk.dedup.stamp dedupLog, c.records.map (·.recount refs), true⟩) } := by
    intro w2 f2 hdisk2 hmem2 hfaults2 hholds2
    have hfile : w2.disk.dedup = f2 := by
      rw [hdisk2]
      rfl
    refine ⟨f2, _, ⟨hdisk2, hmem2 _, ⟨rfl, ?_, .inr rfl⟩, hfaults2⟩, hholds2.recounted hok⟩
    show CacheOk dedupLog w2.disk.dedup _
    rw [hfile]
    exact ⟨(map_recount_perm hok.perm).trans hholds2.table.symm, hsorted,
      fun h => absurd h (by simp)⟩
  unfold appendRecounted
  dsimp only
  split
  next hnone =>
    exact hcached w1 f1 hdisk hmem hfaults (by rw [hnone]; exact hholds)
  next =>
    simp only [updateCache, setCached, wp_bind, wp_get, wp_modify, wp_pure]
    refine wp_mono (appendLog_spec (s := dedupSlot) (v := w) (recounted refs c.records) hdisk
      rfl hholds hfaults) ?_ ?_
    · rintro _ w' ⟨f', rfl, hf'⟩
      exact hcached _ f' rfl hmem (Subset.trans (tail_subset _) hfaults)
        (hf' ▸ hholds.appended _ _)
    rintro _ w' ⟨hfault, f', hdisk', hholds'⟩
    refine .inl ⟨hfault, f', hdisk', fun hno => ?_⟩
    rcases hholds' hno with h | h
    · exact .inl h.sameEntries
    · exact .inr (h.recounted hok)

/-- **Counting anew** sets every count to the number of occurrences; a crash inside leaves the
old counts or the new ones. -/
theorem rebuildRefCounts_spec (hcoh : Coherent dedupSlot w.disk w.mem)
    (hsmall : refs.length ≤ u32Max) :
    wp (rebuildRefCounts env refs) (fun _ w' => RecountPut env refs w w')
      (fun _ w' => RecountFailed refs w w') w := by
  unfold rebuildRefCounts loadDedupIndex
  rw [wp_bind]
  refine hcoh.bind_fresh (fun hbad _ => .inr ⟨rfl, hbad⟩) fun c hready => ?_
  simp only [wp_bind, wp_pure]
  have hok : CacheOk dedupLog w.disk.dedup c := hready.ok
  have hfits : ¬ ∃ id ∈ refs, u32Max < refs.count id := by grind
  rw [wp_check]
  refine ⟨fun h => absurd h hfits, fun _ => ?_⟩
  unfold ensureDedupLogFormat
  simp only [wp_bind, wp_get, wp_ofExcept]
  refine ⟨fun log _ => ?_, fun e he => .inr ⟨rfl, fun hload => ?_⟩⟩
  swap
  · rw [LogFile.readBounded_of_loadable hload] at he
    cases he
  -- a log without the tag is rewritten before it grows
  split
  next =>
    exact appendRecounted_spec hok rfl (fun _ => rfl) (Subset.refl _) (Holds.refl _ _)
  next =>
    refine wp_mono (persistLog_spec (s := dedupSlot) (countSequence c.records) hok.nodup
      hok.sorted) ?_ ?_
    · rintro _ w' ⟨now, c', hput, -⟩
      refine appendRecounted_spec hok hput.disk (fun x => ?_) hput.faults (Holds.rewritten hok _ _)
      rw [hput.mem]
      rfl
    · rintro _ w' ⟨hfault, hdisk | ⟨now, hdisk⟩⟩
      · exact .inl ⟨hfault, w.disk.dedup, hdisk, fun _ => .inl (Holds.refl _ _).sameEntries⟩
      · exact .inl ⟨hfault, _, hdisk, fun _ => .inl (Holds.rewritten hok _ _).sameEntries⟩

end Holo.Storage
