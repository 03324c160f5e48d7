/-
Holo.Storage.RefCounts — references taken away, and calls that fail.

`decrement_ref_counts` changes the cached entries one by one and appends them to the log at the
end.  When it stops at an id that is unknown or has no references left, the entries before it
stay changed in the cache, and the file keeps the old ones.

Main results:
* `decrement_keeps_counts_iff`: a call that fails leaves the counts as they were exactly if
  it failed before it took the first reference (or its append
  left nothing but a new modification time);
* `failed_decrement_stays_cached`: a call that fails at its second id.
-/
import Holo.Storage.Recovery

namespace Holo.Storage

open Lib Program List

variable {env : Env} {w w' : World} {ids : List Nat}

/-! ## §1. Counts. -/

section

variable (env : Env) (w : World) (entries : List DedupIndexEntry)

/-- The reference counts of entries, by entry. -/
def refCountsOf : List (Nat × Nat) :=
  entries.map fun e => (e.entryId, e.refCount)

/-- The counts seen through the cache: what `load_dedup_index` gives. -/
def cachedRefCounts : Except StorageError (List (Nat × Nat)) :=
  (loadDedupIndex env w).1.map refCountsOf

/-- The counts decoded from the file: what `load_dedup_index` gives without a cache. -/
def fileRefCounts : Except StorageError (List (Nat × Nat)) :=
  cachedRefCounts env { w with mem := .empty }

/-- Both are as they were. -/
def CountsKept (w w' : World) : Prop :=
  cachedRefCounts env w' = cachedRefCounts env w ∧ fileRefCounts env w' = fileRefCounts env w

/-- An entry with a reference left. -/
def Takeable (id : Nat) : Prop :=
  ∃ e ∈ entries, e.entryId = id ∧ 0 < e.refCount

/-- The append stopped before its first byte, and the cache is dropped for the new time. -/
structure AppendDisregarded (ids : List Nat) : Prop where
  room : ∀ id ∈ ids, ∃ e ∈ w.disk.dedup.table dedupLog, e.entryId = id ∧ ids.count id ≤ e.refCount
  fault : w.faults.head? = some (.torn 0)
  checked : env.trustHotCache = false
  time : env.clock w.ticks ≠ w.disk.dedup.mtime
  loadable : w.disk.dedup.Loadable dedupLog

/-- **Nothing was taken**: the index cannot be had, or the first id cannot be taken from. -/
def NothingTaken (ids : List Nat) : Prop :=
  ¬ Usable env dedupSlot w ∨ (∀ id ∈ ids.head?, ¬ Takeable (w.disk.dedup.table dedupLog) id) ∨
    AppendDisregarded env w ids

end

/-! ## §2. The loop. -/

variable {entries : List DedupIndexEntry} {id : Nat}

/-- An entry with one reference less. -/
def DedupIndexEntry.taken (e : DedupIndexEntry) : DedupIndexEntry := e.withRefs (e.refCount - 1)

@[simp] theorem DedupIndexEntry.entryId_taken (e : DedupIndexEntry) : e.taken.entryId = e.entryId :=
  rfl

/-- **One turn of the loop**: it stops with nothing changed, or takes a reference and goes on. -/
theorem decrementLoop_cons (id : Nat) (ids : List Nat) (entries : List DedupIndexEntry) :
    ((∃ err, decrementLoop (id :: ids) entries = (entries, .error err)) ∧
      ∀ e, entries.find? (fun e => decide (e.entryId = id)) = some e → e.refCount = 0) ∨
    ∃ e, entries.find? (fun e => decide (e.entryId = id)) = some e ∧ 0 < e.refCount ∧
      decrementLoop (id :: ids) entries = ((decrementLoop ids (replaceEntry e.taken entries)).1,
          (decrementLoop ids (replaceEntry e.taken entries)).2.map (e.taken :: ·)) := by
  rw [decrementLoop]
  cases hfind : entries.find? (fun e => decide (e.entryId = id)) with
  | none => exact .inl ⟨⟨_, rfl⟩, fun e he => by cases he⟩
  | some e =>
    by_cases hzero : e.refCount = 0
    · refine .inl ⟨⟨_, if_pos hzero⟩, fun e' he' => ?_⟩
      cases he'
      exact hzero
    refine .inr ⟨e, rfl, Nat.pos_of_ne_zero hzero, (if_neg hzero).trans ?_⟩
    have htaken : e.taken = { e with refCount := e.refCount - 1 } := rfl
    rw [← htaken]
    dsimp only
    rcases decrementLoop ids (replaceEntry e.taken entries) with ⟨entries', err | us⟩
    · rfl
    · rfl

theorem decrementLoop_ok_cons {ids : List Nat} {entries' us : List DedupIndexEntry}
    (h : decrementLoop (id :: ids) entries = (entries', .ok us)) :
    ∃ e us', entries.find? (fun e => decide (e.entryId = id)) = some e ∧ 0 < e.refCount ∧
      us = e.taken :: us' ∧
      decrementLoop ids (replaceEntry e.taken entries) = (entries', .ok us') := by
  rcases decrementLoop_cons id ids entries with ⟨⟨err, hstop⟩, -⟩ | ⟨e, hfind, hpos, hturn⟩
  · rw [hstop] at h
    cases h
  rw [hturn] at h
  rcases hrest : decrementLoop ids (replaceEntry e.taken entries) with ⟨rest, err | us'⟩
  · rw [hrest] at h
    cases h
  · rw [hrest] at h
    cases h
    exact ⟨e, us', hfind, hpos, rfl, hrest⟩

theorem refCount_sum_taken {e : DedupIndexEntry} (hpos : 0 < e.refCount)
    (hfind : entries.find? (fun x => decide (x.entryId = id)) = some e) :
    ((replaceEntry e.taken entries).map (·.refCount)).sum + 1 = (entries.map (·.refCount)).sum := by
  have hid : e.entryId = id := by simpa using find?_some hfind
  have hone : e.taken.refCount + 1 = e.refCount := Nat.sub_add_cancel hpos
  induction entries with
  | nil => cases hfind
  | cons x entries ih =>
    unfold replaceEntry modifyFirst
    by_cases hx : x.entryId = id
    · rw [find?_cons_of_pos (by simpa using hx)] at hfind
      cases hfind
      rw [if_pos (by simp), map_cons, map_cons, sum_cons, sum_cons]
      omega
    rw [find?_cons_of_neg (by simpa using hx)] at hfind
    rw [if_neg (by simpa [hid] using hx), map_cons, map_cons, sum_cons, sum_cons]
    have hrest := ih hfind
    unfold replaceEntry at hrest
    omega

/-- No count grows. -/
theorem decrementLoop_sum_le (ids : List Nat) : ∀ entries : List DedupIndexEntry,
    ((decrementLoop ids entries).1.map (·.refCount)).sum ≤ (entries.map (·.refCount)).sum := by
  induction ids with
  | nil => exact fun entries => le_rfl
  | cons id ids ih =>
    intro entries
    rcases decrementLoop_cons id ids entries with ⟨⟨err, hstop⟩, -⟩ | ⟨e, hfind, hpos, hturn⟩
    · rw [hstop]
    have hone := refCount_sum_taken hpos hfind
    have hrest := ih (replaceEntry e.taken entries)
    rw [hturn]
    dsimp only
    omega

theorem decrementLoop_refused (hno : ¬ Takeable entries id) (ids : List Nat) :
    (decrementLoop (id :: ids) entries).1 = entries := by
  rcases decrementLoop_cons id ids entries with ⟨⟨err, hstop⟩, -⟩ | ⟨e, hfind, hpos, -⟩
  · rw [hstop]
  · have hid : e.entryId = id := by simpa using find?_some hfind
    exact absurd ⟨e, mem_of_find?_eq_some hfind, hid, hpos⟩ hno

/-- **A reference taken shows in the sum.** -/
theorem decrementLoop_taken (hnd : (entries.map (·.entryId)).Nodup) (h : Takeable entries id)
    (ids : List Nat) :
    ((decrementLoop (id :: ids) entries).1.map (·.refCount)).sum <
      (entries.map (·.refCount)).sum := by
  obtain ⟨e, he, rfl, hpos⟩ := h
  have hfind := find_entry hnd he
  rcases decrementLoop_cons e.entryId ids entries with ⟨-, hzero⟩ | ⟨e', hfind', -, hturn⟩
  · have := hzero e hfind
    omega
  obtain rfl := Option.some.inj (hfind.symm.trans hfind')
  have hone := refCount_sum_taken hpos hfind
  have hrest := decrementLoop_sum_le ids (replaceEntry e.taken entries)
  rw [hturn]
  dsimp only
  omega

/-- Every id has an entry, with a reference for each of its occurrences. -/
def Room (ids : List Nat) (entries : List DedupIndexEntry) : Prop :=
  ∀ id ∈ ids, ∃ e ∈ entries, e.entryId = id ∧ ids.count id ≤ e.refCount

/-- A loop that runs through found every id, with enough references. -/
theorem room_of_decrementLoop (ids : List Nat) :
    ∀ {entries entries' us : List DedupIndexEntry}, (entries.map (·.entryId)).Nodup →
      decrementLoop ids entries = (entries', .ok us) → Room ids entries := by
  induction ids with
  | nil =>
    intro entries entries' us _ _ id hid
    cases hid
  | cons id ids ih =>
    intro entries entries' us hnd hrun id' hid'
    obtain ⟨e, us', hfind, hpos, -, hinner⟩ := decrementLoop_ok_cons hrun
    have he : e ∈ entries := mem_of_find?_eq_some hfind
    have hid : e.entryId = id := by simpa using find?_some hfind
    have hnd' : ((replaceEntry e.taken entries).map (·.entryId)).Nodup := by
      rw [map_entryId_replaceEntry]
      exact hnd
    have hafter := ih hnd' hinner
    have hkey : e.taken.entryId ∈ entries.map (·.entryId) := mem_map.mpr ⟨e, he, rfl⟩
    have hmem_iff : ∀ x, x ∈ replaceEntry e.taken entries ↔
        x = e.taken ∨ (x ∈ entries ∧ x.entryId ≠ e.entryId) := fun x => mem_replaceEntry hnd hkey
    by_cases heq : id' = id
    swap
    · have hmem : id' ∈ ids := (mem_cons.mp hid').resolve_left heq
      obtain ⟨x, hx, hxid, hcount⟩ := hafter id' hmem
      rw [count_cons_of_ne (Ne.symm heq)]
      rcases (hmem_iff x).mp hx with rfl | ⟨hxold, -⟩
      · exact absurd (hxid.symm.trans hid) heq
      · exact ⟨x, hxold, hxid, hcount⟩
    refine ⟨e, he, hid.trans heq.symm, ?_⟩
    rw [heq, count_cons_self]
    by_cases hmem : id ∈ ids
    · obtain ⟨x, hx, hxid, hcount⟩ := hafter id hmem
      -- the entry of this id is the one that was replaced
      obtain rfl := ((hmem_iff x).mp hx).resolve_right fun hother => hother.2 (hxid.trans hid.symm)
      have hcount : ids.count id ≤ e.refCount - 1 := hcount
      omega
    · rw [count_eq_zero.mpr hmem]
      omega

/-! ## §3. What a failed call leaves. -/

theorem ensureDedup_cases (hcoh : Coherent dedupSlot w.disk w.mem) :
    (∃ c, ensureCacheFresh env dedupSlot w =
        (.ok c, w.withCache dedupSlot c) ∧
      Ready env dedupSlot w.disk (dedupSlot.setCache w.mem (some c)) c) ∨
    (∃ e, ensureCacheFresh env dedupSlot w = (.error e, w) ∧ ¬ Usable env dedupSlot w) := by
  have hfresh : wp (ensureCacheFresh env dedupSlot)
      (fun c w' => w' = w.withCache dedupSlot c ∧
        Ready env dedupSlot w'.disk w'.mem c)
      (fun _ w' => w' = w ∧ ¬ (dedupSlot.file w.disk).Loadable dedupSlot.kind) w :=
    ensureCacheFresh_spec hcoh
  have hspec := hfresh.and ensureCacheFresh_usable
  cases hrun : ensureCacheFresh env dedupSlot w with
  | mk r w1 =>
    cases r with
    | ok c =>
      obtain ⟨⟨rfl, hready⟩, -⟩ := hspec.of_ok hrun
      exact .inl ⟨c, rfl, hready⟩
    | error e =>
      obtain ⟨⟨rfl, -⟩, hbad⟩ := hspec.of_error hrun
      exact .inr ⟨e, rfl, hbad⟩

variable {c : CachedLog DedupIndexEntry} {f : LogFile DedupIndexEntry} {us : List DedupIndexEntry}

/-- A cache that is not trusted is fresh by its stamp. -/
theorem stamp_of_untrusted {p : Prop} (h : env.trustHotCache = true ∨ p)
    (hno : env.trustHotCache = false) : p := by
  rw [hno] at h
  exact h.resolve_left Bool.false_ne_true

theorem cachedRefCounts_of_cached (hc : w.mem.dedup = some c)
    (hfresh : env.trustHotCache = true ∨ c.stamp = w.disk.dedup.stamp dedupLog) :
    cachedRefCounts env w = .ok (refCountsOf c.records) := by
  have hrun : ensureCacheFresh env dedupSlot w = (.ok c, w) :=
    ensureCacheFresh_of_fresh hc hfresh
  unfold cachedRefCounts loadDedupIndex
  rw [run_bind_ok hrun]
  rfl

theorem cachedRefCounts_of_stale (hstale : ∀ c, w.mem.dedup = some c →
      env.trustHotCache = false ∧ c.stamp ≠ w.disk.dedup.stamp dedupLog) :
    cachedRefCounts env w = (w.disk.dedup.load dedupLog).map
      (fun log => refCountsOf (decodeTable env dedupSlot w.ticks log)) := by
  have hrun : ensureCacheFresh env dedupSlot w = reloadCache env dedupSlot w :=
    ensureCacheFresh_of_stale hstale
  unfold cachedRefCounts loadDedupIndex
  rw [run_bind, hrun]
  unfold reloadCache
  rw [run_bind_ok (run_get w), run_bind, run_ofExcept]
  cases hload : LogFile.load dedupSlot.kind (dedupSlot.file w.disk) with
  | error e =>
    have hload : w.disk.dedup.load dedupLog = .error e := hload
    rw [hload]
    rfl
  | ok log =>
    have hload : w.disk.dedup.load dedupLog = .ok log := hload
    rw [hload]
    rfl

variable {e : StorageError} {log a b : List DedupIndexEntry}

theorem cachedRefCounts_of_load (hload : w.disk.dedup.load dedupLog = .ok log)
    (hstale : ∀ c, w.mem.dedup = some c →
      env.trustHotCache = false ∧ c.stamp ≠ w.disk.dedup.stamp dedupLog) :
    cachedRefCounts env w = .ok (refCountsOf (decodeTable env dedupSlot w.ticks log)) := by
  rw [cachedRefCounts_of_stale hstale, hload]
  rfl

theorem fileRefCounts_of_load (hload : w.disk.dedup.load dedupLog = .ok log) :
    fileRefCounts env w = .ok (refCountsOf (decodeTable env dedupSlot w.ticks log)) := by
  have hcold : ∀ c, ({ w with mem := .empty } : World).mem.dedup = some c →
      env.trustHotCache = false ∧ c.stamp ≠ w.disk.dedup.stamp dedupLog := by
    intro c hc
    cases hc
  exact @cachedRefCounts_of_load env { w with mem := .empty } log hload hcold

theorem decodeTable_eq (hok : CacheOk dedupLog f c) (nonce : Nat) :
    decodeTable env dedupSlot nonce f.log = c.records :=
  SortedBy.eq_of_perm (decodeTable_sorted nonce f.log) hok.sorted
    ((decodeTable_perm nonce f.log).trans hok.perm.symm)
    (((decodeTable_perm nonce f.log).map _).nodup_iff.mpr (latest_keys_nodup _ _))

section

variable (w : World) (c : CachedLog DedupIndexEntry) (entries : List DedupIndexEntry)

/-- The loop's entries in the cache. -/
def World.recached : World :=
  { w with mem := dedupSlot.setCache w.mem (some { c with records := entries }) }

/-- The loop's entries in the cache, and another file. -/
def World.cutOff (f : LogFile DedupIndexEntry) : World :=
  (w.recached c entries).stepped (dedupSlot.setFile w.disk f)

end

/-- What an append that was cut leaves of the file. -/
inductive CutAppend (env : Env) (us : List DedupIndexEntry) (w : World) :
    LogFile DedupIndexEntry → Prop where
  | before (h : w.faults.head? = some .before) : CutAppend env us w w.disk.dedup
  | after (h : w.faults.head? = some .after) :
      CutAppend env us w (w.disk.dedup.appended dedupLog true us (env.clock w.ticks))
  | torn (cut : Nat) (h : w.faults.head? = some (.torn cut)) :
      CutAppend env us w (w.disk.dedup.tornAppend dedupLog us cut (env.clock w.ticks))

theorem appendLog_error (h : appendLog env dedupSlot us w = (.error e, w')) :
    ∃ f', CutAppend env us w f' ∧ w' = w.stepped (dedupSlot.setFile w.disk f') := by
  unfold appendLog diskStep at h
  cases hfaults : w.faults with
  | nil =>
    rw [hfaults] at h
    cases h
  | cons fault rest =>
    rw [hfaults] at h
    cases fault with
    | proceed => cases h
    | before =>
      cases h
      exact ⟨_, .before (by rw [hfaults]; rfl), by rw [World.stepped, hfaults]; rfl⟩
    | after =>
      cases h
      exact ⟨_, .after (by rw [hfaults]; rfl), by rw [World.stepped, hfaults]; rfl⟩
    | torn cut =>
      cases h
      exact ⟨_, .torn cut (by rw [hfaults]; rfl), by rw [World.stepped, hfaults]; rfl⟩

/-- **A failed call**, in three cases: the index could not be had; the loop stopped; the append
was cut. -/
theorem decrementRefCounts_error (hcoh : Coherent dedupSlot w.disk w.mem)
    (hrun : decrementRefCounts env ids w = (.error e, w')) :
    (w' = w ∧ ¬ Usable env dedupSlot w) ∨
    ids ≠ [] ∧ Usable env dedupSlot w ∧ ∃ c, CacheOk dedupLog w.disk.dedup c ∧
      (env.trustHotCache = true ∨ c.stamp = w.disk.dedup.stamp dedupLog) ∧
      cachedRefCounts env w = .ok (refCountsOf c.records) ∧
      ((∃ err, (decrementLoop ids c.records).2 = .error err ∧
          w' = w.recached c (decrementLoop ids c.records).1) ∨
        ∃ us f', (decrementLoop ids c.records).2 = .ok us ∧ CutAppend env us w f' ∧
          w' = w.cutOff c (decrementLoop ids c.records).1 f') := by
  unfold decrementRefCounts at hrun
  by_cases hnil : ids = []
  · rw [if_pos hnil] at hrun
    cases hrun
  rw [if_neg hnil] at hrun
  rcases ensureDedup_cases hcoh with ⟨c, hload, hready⟩ | ⟨err, hload, hbad⟩
  swap
  · rw [run_bind_error hload] at hrun
    cases hrun
    exact .inl ⟨rfl, hbad⟩
  rw [run_bind_ok hload] at hrun
  have hok : CacheOk dedupLog w.disk.dedup c := hready.ok
  have hformat : ∀ v : World, ensureDedupLogFormatCached env c v = (.ok c, v) := by
    intro v
    unfold ensureDedupLogFormatCached
    rw [if_pos]
    · rfl
    · cases hfmt : c.logFormat with
      | true => exact .inl rfl
      | false => exact .inr (hok.untagged hfmt)
  rw [run_bind_ok (hformat _)] at hrun
  have hcounts : cachedRefCounts env w = .ok (refCountsOf c.records) := by
    unfold cachedRefCounts loadDedupIndex
    rw [run_bind_ok hload]
    rfl
  have husable := ensureCacheFresh_usable.of_ok hload
  refine .inr ⟨hnil, husable, c, hok, hready.fresh, hcounts, ?_⟩
  -- the loop fails with the cache half changed, or the append behind it does
  cases hloop : decrementLoop ids c.records with
  | mk entries outcome =>
    rw [hloop] at hrun
    cases outcome with
    | error err =>
      cases hrun
      exact .inl ⟨_, rfl, rfl⟩
    | ok us =>
      refine .inr ?_
      have hcache : setCached dedupSlot { c with records := entries }
          (w.withCache dedupSlot c) = (.ok (), w.recached c entries) :=
        rfl
      dsimp only at hrun
      rw [run_bind_ok hcache, run_bind_ok (run_ofExcept _ _)] at hrun
      cases happend : appendLog env dedupSlot us (w.recached c entries) with
      | mk r w2 =>
        cases r with
        | ok u =>
          rw [run_bind_ok happend] at hrun
          cases hrun
        | error err =>
          rw [run_bind_error happend] at hrun
          cases hrun
          obtain ⟨f', hcut, rfl⟩ := appendLog_error happend
          refine ⟨us, f', rfl, ?_, rfl⟩
          cases hcut with
          | before h => exact .before h
          | after h => exact .after h
          | torn cut h => exact .torn cut h

/-! ## §4. Kept or not. -/

theorem sum_of_refCountsOf_eq (h : refCountsOf a = refCountsOf b) :
    (a.map (·.refCount)).sum = (b.map (·.refCount)).sum := by
  have hmap := congrArg (fun l => (l.map Prod.snd).sum) h
  simpa [refCountsOf, Function.comp_def] using hmap

theorem Takeable.perm (h : Takeable a id) (hp : a.Perm b) : Takeable b id := by
  obtain ⟨e, he, hid, hpos⟩ := h
  exact ⟨e, hp.mem_iff.mp he, hid, hpos⟩

/-- The loop leaves the counts exactly if it took nothing from the first id. -/
theorem refCountsOf_loop_iff (hnd : (entries.map (·.entryId)).Nodup) :
    refCountsOf (decrementLoop ids entries).1 = refCountsOf entries ↔
      ∀ id ∈ ids.head?, ¬ Takeable entries id := by
  cases ids with
  | nil =>
    constructor
    · intro _ id hid
      cases hid
    · intro _
      rfl
  | cons id ids =>
    constructor
    · intro heq id' hid' htake
      cases hid'
      exact absurd (sum_of_refCountsOf_eq heq) (ne_of_lt (decrementLoop_taken hnd htake ids))
    · intro hno
      rw [decrementLoop_refused (hno id rfl)]

theorem length_decrementLoop (ids : List Nat) : ∀ {entries entries' us : List DedupIndexEntry},
    decrementLoop ids entries = (entries', .ok us) → us.length = ids.length := by
  induction ids with
  | nil =>
    intro entries entries' us hrun
    cases hrun
    rfl
  | cons id ids ih =>
    intro entries entries' us hrun
    obtain ⟨e, us', -, -, rfl, hinner⟩ := decrementLoop_ok_cons hrun
    rw [length_cons, length_cons, ih hinner]

/-- Enough references for every occurrence, entry by entry. -/
theorem count_le_of_room (hnd : (entries.map (·.entryId)).Nodup)
    (hroom : Room ids entries) : ∀ e ∈ entries, ids.count e.entryId ≤ e.refCount := by
  intro e he
  by_cases hmem : e.entryId ∈ ids
  · obtain ⟨x, hx, hxid, hcount⟩ := hroom e.entryId hmem
    obtain rfl : x = e := inj_on_of_nodup_map hnd hx he hxid
    exact hcount
  · rw [count_eq_zero.mpr hmem]
    exact Nat.zero_le _

/-- A loop with room runs through. -/
theorem decrementLoop_ok_of_room (hok : CacheOk dedupLog f c)
    (hroom : Room ids (f.table dedupLog)) :
    ∃ us, (decrementLoop ids c.records).2 = .ok us ∧
      (decrementLoop ids c.records).1.Perm (latest (·.entryId) (f.log ++ us)) := by
  have hroom' : Room ids c.records := by
    intro id hid
    obtain ⟨e, he, hrest⟩ := hroom id hid
    exact ⟨e, hok.mem_iff.mpr he, hrest⟩
  obtain ⟨entries', us, hrun, -, hperm, -⟩ := decrementLoop_spec ids hok.perm
    (count_le_of_room hok.nodup hroom') fun id hid => by
      obtain ⟨e, he, heid, -⟩ := hroom' id hid
      exact ⟨e, he, heid⟩
  rw [hrun]
  exact ⟨us, rfl, hperm⟩

/-- An append that was torn leaves a file that loads exactly if it had not begun. -/
theorem loadable_tornAppend_iff (hne : us ≠ []) (hsome : f.records ≠ none) (cut now : Nat) :
    (f.tornAppend dedupLog us cut now).Loadable dedupLog ↔ cut = 0 ∧ f.Loadable dedupLog := by
  have hlen : (us.flatMap dedupLog.encode).length = 52 * us.length :=
    length_flatMap_const DedupIndexEntry.length_encode us
  have hpos := length_pos_iff.mpr hne
  cases hrecords : f.records with
  | none => exact absurd hrecords hsome
  | some rs =>
    -- the bytes of a torn append stay behind the records, where no loader accepts them
    have htorn : f.tornAppend dedupLog us cut now = { f with
          tail := max f.tail (min cut (52 * us.length)), synced := false, mtime := now } := by
      unfold LogFile.tornAppend
      rw [hrecords, hlen]
    rw [htorn]
    constructor
    · intro h
      have htail : max f.tail (min cut (52 * us.length)) = 0 := h.tail
      have hcut : cut = 0 := by omega
      have htail0 : f.tail = 0 := by omega
      have hlen : segmentHeaderV2TotalSize + (f.payload dedupLog).length +
          max f.tail (min cut (52 * us.length)) ≤ maxMaintenanceMetadataBytes := h.len
      refine ⟨hcut, ⟨?_, h.count, htail0, h.checksum⟩⟩
      unfold LogFile.len
      omega
    intro h
    obtain ⟨rfl, hload⟩ := h
    have htail : max f.tail (min 0 (52 * us.length)) = 0 := by
      rw [hload.tail]
      omega
    have hlen := hload.len
    unfold LogFile.len at hlen
    refine ⟨?_, hload.count, htail, hload.checksum⟩
    show segmentHeaderV2TotalSize + (f.payload dedupLog).length +
      max f.tail (min 0 (52 * us.length)) ≤ maxMaintenanceMetadataBytes
    omega

theorem log_tornAppend (f : LogFile DedupIndexEntry) (us : List DedupIndexEntry) (cut now : Nat) :
    (f.tornAppend dedupLog us cut now).log = f.log := by
  unfold LogFile.tornAppend
  split
  next => rfl
  next => rfl

theorem cachedRefCounts_reload {v : World} (hcache : v.mem.dedup = some c)
    (htrust : env.trustHotCache = false) (hstamp : c.stamp ≠ v.disk.dedup.stamp dedupLog)
    {counts : List (Nat × Nat)} (h : cachedRefCounts env v = .ok counts) :
    v.disk.dedup.Loadable dedupLog ∧
      counts = refCountsOf (decodeTable env dedupSlot v.ticks v.disk.dedup.log) := by
  rw [cachedRefCounts_of_stale fun c' hc' => by
    obtain rfl := Option.some.inj (hcache.symm.trans hc')
    exact ⟨htrust, hstamp⟩] at h
  cases hload : v.disk.dedup.load dedupLog with
  | error e =>
    rw [hload] at h
    cases h
  | ok log =>
    rw [hload] at h
    obtain ⟨rfl, hl⟩ := LogFile.load_eq_ok hload
    cases h
    exact ⟨hl, rfl⟩

theorem len_tornAppend_zero (htail : f.tail = 0) (us : List DedupIndexEntry) (now : Nat) :
    (f.tornAppend dedupLog us 0 now).len dedupLog = f.len dedupLog := by
  unfold LogFile.tornAppend
  split
  next => rfl
  next =>
    show segmentHeaderV2TotalSize + (f.payload dedupLog).length +
      max f.tail (min 0 (us.flatMap dedupLog.encode).length) = f.len dedupLog
    unfold LogFile.len
    omega

theorem mtime_tornAppend (hsome : f.records ≠ none) (us : List DedupIndexEntry) (cut now : Nat) :
    (f.tornAppend dedupLog us cut now).mtime = now := by
  grind [LogFile.tornAppend]

variable {f' : LogFile DedupIndexEntry}

/-- A call whose append was cut, with a cache that is still taken as it is. -/
theorem kept_iff_of_cut_cached (hsome : w.disk.dedup.records ≠ none)
    (hfresh : env.trustHotCache = true ∨ c.stamp = w.disk.dedup.stamp dedupLog)
    (hcounts : cachedRefCounts env w = .ok (refCountsOf c.records))
    (hchanged : refCountsOf entries ≠ refCountsOf c.records) (hcut : CutAppend env us w f')
    (htaken : env.trustHotCache = true ∨ c.stamp = f'.stamp dedupLog) :
    CountsKept env w (w.cutOff c entries f') ↔ AppendDisregarded env w ids := by
  have hcache : (w.cutOff c entries f').mem.dedup = some { c with records := entries } := rfl
  have hafter : cachedRefCounts env (w.cutOff c entries f') = .ok (refCountsOf entries) :=
    cachedRefCounts_of_cached hcache htaken
  constructor
  · intro hkept
    have heq := hkept.1
    rw [hafter, hcounts] at heq
    exact absurd (Except.ok.inj heq) hchanged
  intro hdisregarded
  exfalso
  -- a cache that is not trusted is dropped for the new time
  have hstamp := stamp_of_untrusted htaken hdisregarded.checked
  have hstamp0 := stamp_of_untrusted hfresh hdisregarded.checked
  have hmtime : f'.mtime = w.disk.dedup.mtime :=
    congrArg Prod.snd (hstamp.symm.trans hstamp0)
  have hfault := hdisregarded.fault
  cases hcut with
  | before h | after h =>
    rw [h] at hfault
    cases hfault
  | torn cut h =>
    rw [mtime_tornAppend hsome] at hmtime
    exact hdisregarded.time hmtime

/-- A call whose append was cut, with a cache that is read anew. -/
theorem kept_iff_of_cut_reloaded (hok : CacheOk dedupLog w.disk.dedup c)
    (hsome : w.disk.dedup.records ≠ none)
    (hcounts : cachedRefCounts env w = .ok (refCountsOf c.records)) (hus : us ≠ [])
    (hperm : entries.Perm (latest (·.entryId) (w.disk.dedup.log ++ us)))
    (hroom : Room ids (w.disk.dedup.table dedupLog))
    (hless : (entries.map (·.refCount)).sum < (c.records.map (·.refCount)).sum)
    (hcut : CutAppend env us w f') (htrust : env.trustHotCache = false)
    (hstamp0 : c.stamp = w.disk.dedup.stamp dedupLog) (hstamp : c.stamp ≠ f'.stamp dedupLog) :
    CountsKept env w (w.cutOff c entries f') ↔ AppendDisregarded env w ids := by
  have hcache : (w.cutOff c entries f').mem.dedup = some { c with records := entries } := rfl
  cases hcut with
  | before h => exact absurd hstamp0 hstamp
  | after h =>
    constructor
    swap
    · intro hdisregarded
      have hfault := hdisregarded.fault
      rw [h] at hfault
      cases hfault
    intro hkept
    obtain ⟨-, heq⟩ := cachedRefCounts_reload hcache htrust hstamp (hkept.1.trans hcounts)
    have hsum := sum_of_refCountsOf_eq heq
    have hdecoded : (decodeTable env dedupSlot (w.ticks + 1) (w.disk.dedup.log ++ us)).Perm
        (latest dedupSlot.kind.id (w.disk.dedup.log ++ us)) := decodeTable_perm _ _
    have hall : ((decodeTable env dedupSlot (w.ticks + 1) (w.disk.dedup.log ++ us)).map
        (·.refCount)).sum = (entries.map (·.refCount)).sum :=
      ((hdecoded.trans hperm.symm).map _).sum_nat
    have hlog : (w.disk.dedup.appended dedupLog true us (env.clock w.ticks)).log =
        w.disk.dedup.log ++ us := LogFile.log_appended true
    have hsum : (c.records.map (·.refCount)).sum = ((decodeTable env dedupSlot (w.ticks + 1)
          (w.disk.dedup.appended dedupLog true us (env.clock w.ticks)).log).map
            (·.refCount)).sum := hsum
    rw [hlog] at hsum
    omega
  | torn cut h =>
    constructor
    · intro hkept
      obtain ⟨hload, -⟩ := cachedRefCounts_reload hcache htrust hstamp (hkept.1.trans hcounts)
      obtain ⟨rfl, hload0⟩ := (loadable_tornAppend_iff hus hsome cut _).mp hload
      refine ⟨hroom, h, htrust, fun htime => hstamp ?_, hload0⟩
      -- with the old time the stamp would be the old one
      rw [hstamp0]
      refine Prod.ext ?_ ?_
      · exact (len_tornAppend_zero hload0.tail us _).symm
      · rw [LogFile.stamp, LogFile.stamp, mtime_tornAppend hsome]
        exact htime.symm
    intro hdisregarded
    have hcut : cut = 0 := by
      have hfault := h.symm.trans hdisregarded.fault
      cases hfault
      rfl
    have hload : (w.disk.dedup.tornAppend dedupLog us cut (env.clock w.ticks)).Loadable
        dedupLog := (loadable_tornAppend_iff hus hsome cut _).mpr ⟨hcut, hdisregarded.loadable⟩
    have hlog := log_tornAppend w.disk.dedup us cut (env.clock w.ticks)
    have hread : (w.disk.dedup.tornAppend dedupLog us cut (env.clock w.ticks)).load dedupLog =
        .ok w.disk.dedup.log := by
      rw [LogFile.load_of_loadable hload, hlog]
    refine ⟨?_, ?_⟩
    · rw [hcounts, cachedRefCounts_of_load hread fun c' hc' => ?_]
      · rw [decodeTable_eq hok]
      · obtain rfl := Option.some.inj (hcache.symm.trans hc')
        exact ⟨htrust, hstamp⟩
    · rw [fileRefCounts_of_load hread,
        fileRefCounts_of_load (LogFile.load_of_loadable hdisregarded.loadable),
        decodeTable_eq hok, decodeTable_eq hok]

/-- A call whose append was cut: the file shows it, or the cache does. -/
theorem kept_iff_of_cut (hok : CacheOk dedupLog w.disk.dedup c)
    (hfresh : env.trustHotCache = true ∨ c.stamp = w.disk.dedup.stamp dedupLog)
    (hcounts : cachedRefCounts env w = .ok (refCountsOf c.records))
    (hloop : decrementLoop ids c.records = (entries, .ok us)) (hne : ids ≠ [])
    (hroom : Room ids (w.disk.dedup.table dedupLog))
    (hless : (entries.map (·.refCount)).sum < (c.records.map (·.refCount)).sum)
    (hcut : CutAppend env us w f') :
    CountsKept env w (w.cutOff c entries f') ↔ AppendDisregarded env w ids := by
  have hsome : w.disk.dedup.records ≠ none := by
    intro hnone
    obtain ⟨id, rest, rfl⟩ := exists_cons_of_ne_nil hne
    obtain ⟨e, he, -⟩ := hroom id mem_cons_self
    unfold LogFile.table LogFile.log at he
    rw [hnone] at he
    cases he
  -- the next reader takes the cache, or it reads the file
  by_cases htaken : env.trustHotCache = true ∨ c.stamp = f'.stamp dedupLog
  · refine kept_iff_of_cut_cached hsome hfresh hcounts (fun heq => ?_) hcut htaken
    exact absurd (sum_of_refCountsOf_eq heq) (ne_of_lt hless)
  have htrust : env.trustHotCache = false := by grind
  have hstamp0 := stamp_of_untrusted hfresh htrust
  have hus : us ≠ [] := by
    have hlen := length_decrementLoop ids hloop
    have hpos := length_pos_iff.mpr hne
    exact length_pos_iff.mp (hlen ▸ hpos)
  obtain ⟨us', hus', hperm⟩ := decrementLoop_ok_of_room hok hroom
  grind [kept_iff_of_cut_reloaded]

/-- **The counts after a failed call** are as before exactly if nothing was taken. -/
theorem decrement_keeps_counts_iff {e : StorageError} (hcoh : Coherent dedupSlot w.disk w.mem)
    (hrun : decrementRefCounts env ids w = (.error e, w')) :
    CountsKept env w w' ↔ NothingTaken env w ids := by
  rcases decrementRefCounts_error hcoh hrun with
    ⟨rfl, hbad⟩ | ⟨hne, husable, c, hok, hfresh, hcounts, hcase⟩
  · exact ⟨fun _ => .inl hbad, fun _ => ⟨rfl, rfl⟩⟩
  set looped := (decrementLoop ids c.records).1 with hlooped
  -- the first id, in the cache and in the table
  have hhead : refCountsOf looped = refCountsOf c.records ↔
      ∀ id ∈ ids.head?, ¬ Takeable (w.disk.dedup.table dedupLog) id := by
    rw [hlooped, refCountsOf_loop_iff hok.nodup]
    constructor
    · exact fun h id hid htake => h id hid (htake.perm hok.perm.symm)
    · exact fun h id hid htake => h id hid (htake.perm hok.perm)
  rcases hcase with ⟨err, hloop, rfl⟩ | ⟨us, f', hloop, hcut, rfl⟩
  · -- the loop stopped: the file is as it was, the cache as the loop left it
    have hafter : cachedRefCounts env (w.recached c looped) =
        .ok (refCountsOf looped) := by
      have hcache : (w.recached c looped).mem.dedup =
          some { c with records := looped } := rfl
      exact cachedRefCounts_of_cached hcache hfresh
    constructor
    · intro hkept
      have heq := hkept.1
      rw [hafter, hcounts] at heq
      exact .inr (.inl (hhead.mp (Except.ok.inj heq)))
    intro hnothing
    rcases hnothing with hbad | hno | hdisregarded
    · exact absurd husable hbad
    · refine ⟨?_, rfl⟩
      rw [hafter, hcounts, hhead.mpr hno]
    · obtain ⟨us, hus, -⟩ := decrementLoop_ok_of_room hok hdisregarded.room
      rw [hus] at hloop
      cases hloop
  -- the append was cut: the cache is as the loop left it, if it is still taken as it is
  have hrunLoop : decrementLoop ids c.records = (looped, .ok us) :=
    Prod.ext rfl hloop
  have hroom : Room ids (w.disk.dedup.table dedupLog) := by
    intro id hid
    obtain ⟨e, he, hrest⟩ := room_of_decrementLoop ids hok.nodup hrunLoop id hid
    exact ⟨e, hok.mem_iff.mp he, hrest⟩
  have htake : ∃ id ∈ ids.head?, Takeable (w.disk.dedup.table dedupLog) id := by
    obtain ⟨id, rest, rfl⟩ := exists_cons_of_ne_nil hne
    obtain ⟨e, he, heid, hcount⟩ := hroom id mem_cons_self
    rw [count_cons_self] at hcount
    exact ⟨id, rfl, e, he, heid, by omega⟩
  have hless : (looped.map (·.refCount)).sum <
      (c.records.map (·.refCount)).sum := by
    obtain ⟨id, rest, rfl⟩ := exists_cons_of_ne_nil hne
    obtain ⟨id', hid', htake⟩ := htake
    cases hid'
    exact decrementLoop_taken hok.nodup (htake.perm hok.perm.symm) rest
  have hnothing : NothingTaken env w ids ↔ AppendDisregarded env w ids := by
    constructor
    · intro h
      rcases h with hbad | hno | hdisregarded
      · exact absurd husable hbad
      · obtain ⟨id, hid, htake⟩ := htake
        exact absurd htake (hno id hid)
      · exact hdisregarded
    · exact fun h => .inr (.inr h)
  rw [hnothing]
  exact kept_iff_of_cut hok hfresh hcounts hrunLoop hne hroom hless hcut

/-- A layout with one entry, which has one reference. -/
def oneEntry : World where
  disk := { Disk.fresh .standard 0 with
    dedup := .written dedupLog 1 (some [⟨1, 7, 7, 0, 3, 1, 3, .none, 1, 1⟩]) 0 }
  mem := .empty
  ticks := 0
  faults := []

theorem decrement_unknown_id : (decrementRefCounts .standard [2] oneEntry).1.isOk = false ∧
      CountsKept .standard oneEntry (decrementRefCounts .standard [2] oneEntry).2 := by
  have hfails : (decrementRefCounts .standard [2] oneEntry).1.isOk = false := by decide +kernel
  refine ⟨hfails, ?_⟩
  cases hrun : decrementRefCounts .standard [2] oneEntry with
  | mk r w' =>
    cases r with
    | ok es =>
      rw [hrun] at hfails
      cases hfails
    | error e =>
      refine (decrement_keeps_counts_iff (Coherent.empty _ _ rfl) hrun).mpr (.inr (.inl ?_))
      intro id hid htake
      cases hid
      obtain ⟨x, hx, hxid, -⟩ := htake
      have hall : ∀ x ∈ oneEntry.disk.dedup.table dedupLog, x.entryId ≠ 2 := by decide +kernel
      exact hall x hx hxid

/-- **A call that fails at its second id**: the reference of the first stays taken in the cache,
while the file still has it. -/
theorem failed_decrement_stays_cached :
    (decrementRefCounts .standard [1, 2] oneEntry).1.isOk = false ∧
      (cachedRefCounts .standard oneEntry).toOption = some [(1, 1)] ∧
      (cachedRefCounts .standard (decrementRefCounts .standard [1, 2] oneEntry).2).toOption =
        some [(1, 0)] ∧
      (fileRefCounts .standard (decrementRefCounts .standard [1, 2] oneEntry).2).toOption =
        some [(1, 1)] := by
  decide +kernel

end Holo.Storage
