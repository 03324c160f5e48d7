/-
Holo.Storage.LogSpec — what the operations on a cached log do.

A cache entry is COHERENT when it is the log's table, sorted, whatever its stamp says; it
is READY when the code will use it without looking at the file again.

Main results:
* `ensureCacheFresh_spec`: a log read through a coherent cache is the log on disk, and
  reading fails only on a file that is not loadable;
* `appendSorted_spec`, `persistLog_spec`: an append puts its record over the table, a
  rewrite replaces it; a crash inside leaves the table before or after.
-/
import Holo.Storage.World
import Mathlib.Data.List.Infix

namespace Holo.Storage

open Lib Program List LogFile World

variable {R : Type} {env : Env} {s : LogSlot R} {k : LogKind R}

/-! ## §1. Coherent caches. -/

/-- The entry is the table of the file in the readers' order. -/
structure CacheOk (k : LogKind R) (f : LogFile R) (c : CachedLog R) : Prop where
  perm : c.records.Perm (f.table k)
  sorted : SortedBy k.sortKey c.records
  untagged : c.logFormat = false → c.records = []

/-- Whatever is cached of a log is its table. -/
def Coherent (s : LogSlot R) (d : Disk) (m : Caches) : Prop :=
  ∀ c, s.cache m = some c → CacheOk s.kind (s.file d) c

/-- The cached entry is coherent and will be used as it is. -/
structure Ready (env : Env) (s : LogSlot R) (d : Disk) (m : Caches) (c : CachedLog R) : Prop where
  cached : s.cache m = some c
  ok : CacheOk s.kind (s.file d) c
  fresh : env.trustHotCache = true ∨ c.stamp = (s.file d).stamp s.kind

variable {c : CachedLog R} {f f' : LogFile R} {r : R} {w : World} {records : List R}

variable {E : StorageError → World → Prop} {m : Caches} {α : Type}

theorem Ready.coherent {d : Disk} (h : Ready env s d m c) : Coherent s d m := by
  intro c' hc'
  rw [h.cached] at hc'
  injection hc' with hc'
  exact hc' ▸ h.ok

theorem Coherent.empty (s : LogSlot R) (d : Disk) (h : s.cache m = none) : Coherent s d m := by
  intro c hc
  rw [h] at hc
  cases hc

theorem CacheOk.mem_iff (h : CacheOk k f c) : r ∈ c.records ↔ r ∈ f.table k := h.perm.mem_iff

theorem CacheOk.nodup (h : CacheOk k f c) :
    (c.records.map k.id).Nodup := (h.perm.map k.id).nodup_iff.mpr (f.table_nodup)

theorem CacheOk.congr (h : CacheOk k f c) (ht : (f'.table k).Perm (f.table k)) : CacheOk k f' c :=
  ⟨h.perm.trans ht.symm, h.sorted, h.untagged⟩

theorem decodeTable_perm (nonce : Nat) (log : List R) :
    (decodeTable env s nonce log).Perm (latest s.kind.id log) :=
  (sortByKey_perm _ _).trans (sortByKey_perm _ _)

theorem decodeTable_sorted (nonce : Nat) (log : List R) :
    SortedBy s.kind.sortKey (decodeTable env s nonce log) := sortByKey_sorted _ _

theorem cacheOk_reload (nonce : Nat) (f : LogFile R) (stamp : Nat × Nat) :
    CacheOk s.kind f ⟨stamp, decodeTable env s nonce f.log, f.records.isSome⟩ where
  perm := decodeTable_perm nonce f.log
  sorted := decodeTable_sorted nonce f.log
  untagged h := by
    have hnone : f.records = none := by simpa using h
    have hlog : f.log = [] := by simp [LogFile.log, hnone]
    have hperm : (decodeTable env s nonce f.log).Perm [] := by
      simpa [hlog] using @decodeTable_perm R env s nonce f.log
    exact hperm.eq_nil

theorem reloadCache_spec {w : World} : wp (reloadCache env s)
      (fun c w' => w' = w.withCache s c ∧
        Ready env s w'.disk w'.mem c ∧ (s.file w.disk).Loadable s.kind)
      (fun _ w' => w' = w ∧ ¬ (s.file w.disk).Loadable s.kind) w := by
  unfold reloadCache setCached
  simp only [wp_bind, wp_get, wp_ofExcept, wp_modify, wp_pure]
  refine ⟨fun log hlog => ?_, fun e he => ?_⟩
  · obtain ⟨rfl, hload⟩ := load_eq_ok hlog
    exact ⟨trivial, ⟨by simp, cacheOk_reload _ _ _, .inr rfl⟩, hload⟩
  grind [load_of_loadable]

/-- A log that is not cached is loaded exactly if its loader accepts it. -/
theorem ensureCacheFresh_cold (hcold : s.cache w.mem = none) : wp (ensureCacheFresh env s)
      (fun c w' => w' = w.withCache s c ∧
        Ready env s w'.disk w'.mem c ∧ (s.file w.disk).Loadable s.kind)
      (fun _ w' => w' = w ∧ ¬ (s.file w.disk).Loadable s.kind) w := by
  unfold ensureCacheFresh
  rw [wp_bind, wp_get, hcold]
  exact reloadCache_spec

/-- **Reading through the cache.**  It gives the table of the file, leaves the entry ready,
and fails only on a file that is not loadable. -/
theorem ensureCacheFresh_spec (h : Coherent s w.disk w.mem) : wp (ensureCacheFresh env s)
      (fun c w' => w' = w.withCache s c ∧ Ready env s w'.disk w'.mem c)
      (fun _ w' => w' = w ∧ ¬ (s.file w.disk).Loadable s.kind) w := by
  have hreload : wp (reloadCache env s)
      (fun c w' => w' = w.withCache s c ∧ Ready env s w'.disk w'.mem c)
      (fun _ w' => w' = w ∧ ¬ (s.file w.disk).Loadable s.kind) w :=
    wp_mono reloadCache_spec (fun _ _ h => ⟨h.1, h.2.1⟩) (fun _ _ h => h)
  unfold ensureCacheFresh
  simp only [wp_bind, wp_get]
  split
  next c hc =>
    rw [wp_ite]
    refine ⟨fun hfresh => ?_, fun _ => hreload⟩
    have hset : s.setCache w.mem (some c) = w.mem := by rw [← hc, s.setCache_cache]
    rw [wp_pure, World.withCache, hset]
    exact ⟨rfl, hc, h c hc, hfresh⟩
  next => exact hreload

/-- A program that begins by reading the log: it stops where the file cannot be loaded, and goes
on with the records in the cache. -/
theorem Coherent.bind_fresh {f : CachedLog R → StorageM α} {Q : α → World → Prop}
    (h : Coherent s w.disk w.mem) (hbad : ¬ (s.file w.disk).Loadable s.kind → ∀ e, E e w)
    (hgood : ∀ c, Ready env s w.disk (s.setCache w.mem (some c)) c →
      wp (f c) Q E (w.withCache s c)) :
    wp (ensureCacheFresh env s >>= f) Q E w := by
  refine wp.bind (ensureCacheFresh_spec h) ?_ ?_
  · intro c w' hout
    obtain ⟨rfl, hready⟩ := hout
    exact hgood c hready
  · intro e w' hout
    obtain ⟨rfl, hno⟩ := hout
    exact hbad hno e

theorem wp_updateCache {Q : Unit → World → Prop} : wp (updateCache s records) Q E w ↔ Q () { w with
      mem := s.setCache w.mem (some ⟨(s.file w.disk).stamp s.kind, records, true⟩) } := Iff.rfl

/-- The log can be had: it is cached and taken as it is, or its file can be loaded. -/
def Usable (env : Env) (s : LogSlot R) (w : World) : Prop :=
  (∃ c, s.cache w.mem = some c ∧
    (env.trustHotCache = true ∨ c.stamp = (s.file w.disk).stamp s.kind)) ∨
  (s.file w.disk).Loadable s.kind

theorem Ready.usable (h : Ready env s w.disk w.mem c) :
    Usable env s w := .inl ⟨c, h.cached, h.fresh⟩

/-- **A log is read exactly if it can be had.** -/
theorem ensureCacheFresh_usable :
    wp (ensureCacheFresh env s) (fun _ _ => Usable env s w) (fun _ _ => ¬ Usable env s w) w := by
  unfold ensureCacheFresh
  simp only [wp_bind, wp_get]
  split
  next c hc =>
    rw [wp_ite]
    refine ⟨fun hfresh => .inl ⟨c, hc, hfresh⟩, fun hstale => ?_⟩
    refine wp_mono reloadCache_spec (fun _ _ hout => .inr hout.2.2) ?_
    intro _ _ hout husable
    rcases husable with ⟨c', hc', hfresh⟩ | hload
    · grind
    · exact hout.2 hload
  next hc =>
    refine wp_mono reloadCache_spec (fun _ _ hout => .inr hout.2.2) ?_
    intro _ _ hout husable
    rcases husable with ⟨c', hc', -⟩ | hload
    · rw [hc] at hc'
      cases hc'
    · exact hout.2 hload

theorem ensureCacheFresh_of_fresh (hc : s.cache w.mem = some c)
    (hfresh : env.trustHotCache = true ∨ c.stamp = (s.file w.disk).stamp s.kind) :
    ensureCacheFresh env s w = (.ok c, w) := by
  unfold ensureCacheFresh
  rw [run_bind_ok (run_get w), hc]
  simp only
  rw [if_pos hfresh]
  rfl

theorem ensureCacheFresh_of_ready (h : Ready env s w.disk w.mem c) :
    ensureCacheFresh env s w = (.ok c, w) :=
  ensureCacheFresh_of_fresh h.cached h.fresh

/-- A log that is not cached, or whose cached copy is out of date. -/
theorem ensureCacheFresh_of_stale (hstale : ∀ c, s.cache w.mem = some c →
      env.trustHotCache = false ∧ c.stamp ≠ (s.file w.disk).stamp s.kind) :
    ensureCacheFresh env s w = reloadCache env s w := by
  unfold ensureCacheFresh
  rw [run_bind_ok (run_get w)]
  cases hc : s.cache w.mem with
  | none => rfl
  | some c =>
    simp [hstale, hc]

/-! ## §2. The table after a change. -/

/-- `f'` holds the table of `f` with `rs` put over it, and is sound if `f` was. -/
structure Holds (k : LogKind R) (f : LogFile R) (rs : List R) (f' : LogFile R) : Prop where
  table : (f'.table k).Perm (latest k.id (f.log ++ rs))
  sound : f.Sound k → f'.Sound k

theorem Holds.refl (k : LogKind R) (f : LogFile R) : Holds k f [] f where
  table := by simp [LogFile.table]
  sound h := h

/-- The table put under the same records depends only on the table. -/
theorem latest_append_perm {a b : List R} (rs : List R) (h : (latest k.id a).Perm (latest k.id b)) :
    (latest k.id (a ++ rs)).Perm (latest k.id (b ++ rs)) := by
  rw [latest_append, latest_append]
  exact (h.filter _).append_right _

theorem Holds.table_nil (h : Holds k f [] f') : (f'.table k).Perm (f.table k) := by
  have := h.table
  rwa [append_nil] at this

theorem Holds.rewritten (h : CacheOk k f c) (seq now : Nat) :
    Holds k f [] (.written k seq (some c.records) now) where
  table := by
    rw [table_written h.nodup, append_nil]
    exact h.perm
  sound _ := LogFile.Sound.written _ _

theorem Holds.appended (h : Holds k f [] f') (rs : List R) (now : Nat) :
    Holds k f rs (f'.appended k true rs now) where
  table := by
    unfold LogFile.table
    rw [log_appended]
    exact latest_append_perm rs h.table_nil
  sound hs := (h.sound hs).appended

theorem Holds.mem_iff_single {r x : R} (h : Holds k f [r] f') :
    x ∈ f'.table k ↔ x = r ∨ (x ∈ f.table k ∧ k.id r ≠ k.id x) := by
  rw [h.table.mem_iff, mem_latest_append (by simp)]
  simp [LogFile.table]

/-- With a fresh id the table just grows. -/
theorem Holds.table_fresh (h : Holds k f [r] f') (hfresh : ∀ x ∈ f.table k, k.id x ≠ k.id r) :
    (f'.table k).Perm (r :: f.table k) := by
  refine h.table.trans ?_
  rw [latest_append_fresh]
  · exact perm_append_singleton r _
  · intro x hx hid
    obtain ⟨y, hy, hyid⟩ := exists_mem_latest k.id hx
    exact hfresh y hy (hyid.trans hid)

/-- A new id that is not the last one is above every id of the table. -/
theorem LogKind.nextId_fresh (h : k.nextId records ≠ u64Max) :
    0 < k.nextId records ∧ k.nextId records < u64Max ∧
      ∀ r ∈ records, k.id r < k.nextId records := by
  have hmax : k.nextId records ≤ u64Max := satAdd64_le _ _
  have hle : ∀ r ∈ records, k.id r ≤ (records.map k.id).foldr max 0 :=
    fun r hr => le_max_of_le (mem_map_of_mem hr) le_rfl
  grind [LogKind.nextId, satAdd64]

/-- The id space is used up only by a record close to its end. -/
theorem LogKind.exists_of_nextId_eq (h : k.nextId records = u64Max) :
    ∃ r ∈ records, u64Max ≤ k.id r + 1 := by
  by_contra hcon
  simp only [not_exists, not_and, not_le] at hcon
  have hlt : (records.map k.id).foldr max 0 ≤ u64Max - 2 := by
    apply max_le_of_forall_le
    intro n hn
    obtain ⟨r, hr, rfl⟩ := mem_map.mp hn
    have := hcon r hr
    omega
  have hbig : 2 ≤ u64Max := by decide
  unfold LogKind.nextId satAdd64 at h
  omega

/-! ## §3. Writing a log. -/

/-- What a crash inside an operation that puts `rs` over the log of `s` leaves: only the
log's file changed, and, if no step was cut short, to the table before or after. -/
structure Interrupted (s : LogSlot R) (rs : List R) (w w' : World) : Prop where
  fault : w.faults ≠ []
  disk : ∃ f', w'.disk = s.setFile w.disk f' ∧
    (NoTorn w.faults → Holds s.kind (s.file w.disk) [] f' ∨ Holds s.kind (s.file w.disk) rs f')

theorem Interrupted.of_cached {s : LogSlot R} {rs : List R} {w w' : World}
    (h : Interrupted s rs { w with mem := m } w') : Interrupted s rs w w' := ⟨h.fault, h.disk⟩

/-- A log was changed to `f'`, its cache entry is `c'` and ready; nothing else changed. -/
structure SlotPut (env : Env) (s : LogSlot R) (w w' : World) (f' : LogFile R)
    (c' : CachedLog R) : Prop where
  disk : w'.disk = s.setFile w.disk f'
  mem : w'.mem = s.setCache w.mem (some c')
  ready : Ready env s w'.disk w'.mem c'
  faults : w'.faults ⊆ w.faults

/-- A change made from a world that differs only in what is cached of the log. -/
theorem SlotPut.of_cached {w w' : World} {c f' c'}
    (h : SlotPut env s (w.withCache s c) w' f' c') :
    SlotPut env s w w' f' c' where
  disk := h.disk
  mem := h.mem.trans (s.setCache_setCache _ _ _)
  ready := h.ready
  faults := h.faults

theorem ne_nil_of_subset {l l' : List α} (h : l ⊆ l') (hne : l ≠ []) : l' ≠ [] :=
  fun hnil => hne (subset_nil.mp (hnil ▸ h))

/-- An append to a file that holds the table of `f`. -/
theorem appendLog_spec {w v : World} {f g : LogFile R} (rs : List R)
    (hdisk : w.disk = s.setFile v.disk g) (hfile : s.file v.disk = f)
    (hholds : Holds s.kind f [] g) (hfaults : w.faults ⊆ v.faults) :
    wp (appendLog env s rs) (fun _ w' => ∃ f', w' = w.stepped (s.setFile v.disk f') ∧
        f' = g.appended s.kind true rs (env.clock w.ticks))
      (fun _ w' => Interrupted s rs v w') w := by
  have hfile1 : s.file w.disk = g := by rw [hdisk, s.file_setFile]
  have hne : w.faults ≠ [] → v.faults ≠ [] := ne_nil_of_subset hfaults
  subst hfile
  refine wp_diskStep ?_ (fun hf => ⟨hne hf, g, ?_, fun _ => .inl hholds⟩) (fun hf =>
    ⟨hne hf, g.appended s.kind true rs (env.clock w.ticks), ?_,
      fun _ => .inr (hholds.appended rs _)⟩) (fun cut hcut =>
    ⟨hne (ne_nil_of_mem hcut), g.tornAppend s.kind rs cut (env.clock w.ticks), ?_,
      fun hno => absurd (hfaults hcut) (hno cut)⟩)
  · refine ⟨_, ?_, rfl⟩
    rw [hfile1, hdisk, s.setFile_setFile]
  · exact hdisk
  · rw [disk_stepped, hfile1, hdisk, s.setFile_setFile]
  · rw [disk_stepped, hfile1, hdisk, s.setFile_setFile]

theorem LogFile.loadable_written_nil (k : LogKind R) (seq now : Nat) :
    (LogFile.written k seq (some []) now).Loadable k where
  len := by
    have htag := k.tag_length
    have hpay : ((LogFile.written k seq (some []) now).payload k).length = 4 := by simp [htag]
    have htail : (LogFile.written k seq (some ([] : List R)) now).tail = 0 := rfl
    unfold LogFile.len
    rw [hpay, htail]
    decide
  count := by simp [maxMaintenanceMetadataRecords]
  tail := rfl
  checksum := rfl

theorem CacheOk.insert (h : CacheOk k f c) (hf : (f'.table k).Perm (r :: f.table k))
    (stamp : Nat × Nat) :
    CacheOk k f' ⟨stamp, insertByKey k.sortKey r c.records, true⟩ where
  perm := ((insertByKey_perm k.sortKey r c.records).trans (h.perm.cons r)).trans hf.symm
  sorted := insertByKey_sorted h.sorted
  untagged h := absurd h (by simp)

/-- The last part of an append: the file holds the table of `w₀`, and so does the cache. -/
theorem appendAndInsert_spec {w w0 : World} {f1 : LogFile R} (hdisk : w.disk = s.setFile w0.disk f1)
    (hmem : w.mem = s.setCache w0.mem (some c)) (hholds : Holds s.kind (s.file w0.disk) [] f1)
    (hok : CacheOk s.kind (s.file w0.disk) c) (hfaults : w.faults ⊆ w0.faults)
    (hfresh : ∀ x ∈ (s.file w0.disk).table s.kind, s.kind.id x ≠ s.kind.id r)
    (hid : s.kind.id r < u64Max) :
    wp (appendAndInsert env s r)
      (fun _ w' => ∃ f' c', SlotPut env s w0 w' f' c' ∧ Holds s.kind (s.file w0.disk) [r] f')
      (fun _ w' => Interrupted s [r] w0 w') w := by
  refine wp.bind (appendLog_spec [r] hdisk rfl hholds hfaults) ?_ (fun _ _ h => h)
  rintro _ w' ⟨f', rfl, hf'⟩
  have hcache : s.cache w.mem = some c := by rw [hmem, s.cache_setCache]
  have hnext : checkedAdd64 (s.kind.id r) 1 ≠ none := by grind [checkedAdd64]
  have hgrown : Holds s.kind (s.file w0.disk) [r] f' := hf' ▸ hholds.appended [r] _
  have hfile : s.file (s.setFile w0.disk f') = f' := s.file_setFile _ _
  simp only [wp_bind, wp_get, mem_stepped, disk_stepped, hcache]
  simp only [wp_check, hnext, false_implies, not_false_eq_true, true_implies, true_and, setCached,
    wp_modify, hfile]
  refine ⟨f', restamped env s c (insertByKey s.kind.sortKey r c.records) f',
    ⟨rfl, ?_, ⟨?_, ?_, ?_⟩, Subset.trans (tail_subset _) hfaults⟩, hgrown⟩
  · rw [mem_stepped, hmem, s.setCache_setCache]
  · rw [s.cache_setCache]
  · rw [disk_stepped, hfile]
    exact hok.insert (hgrown.table_fresh hfresh) _
  grind [restamped, disk_stepped]

/-- **An append through the cache** puts its record over the table and keeps the cache ready;
a crash inside leaves the table before or after. -/
theorem appendSorted_spec (seqOf : List R → Nat) (hready : Ready env s w.disk w.mem c)
    (hfresh : ∀ x ∈ (s.file w.disk).table s.kind, s.kind.id x ≠ s.kind.id r)
    (hid : s.kind.id r < u64Max) :
    wp (appendSorted env s seqOf c r)
      (fun _ w' => ∃ f' c', SlotPut env s w w' f' c' ∧ Holds s.kind (s.file w.disk) [r] f')
      (fun _ w' => Interrupted s [r] w w') w := by
  have hset : s.setCache w.mem (some c) = w.mem := by rw [← hready.cached, s.setCache_cache]
  unfold appendSorted
  split
  next =>
    exact appendAndInsert_spec (s.setFile_file w.disk).symm hset.symm (Holds.refl _ _) hready.ok
      (Subset.refl _) hfresh hid
  next hformat =>
    -- the file has no tag yet: the (empty) table is written as a log first
    have hrewritten := fun now => Holds.rewritten hready.ok (seqOf c.records) now
    have hnil : c.records = [] := hready.ok.untagged (by simpa using hformat)
    rw [wp_bind]
    refine wp_atomicStep ?_
      (fun hf => ⟨hf, s.file w.disk, (s.setFile_file _).symm, fun _ => .inl (Holds.refl _ _)⟩)
      (fun hf => ⟨hf, _, rfl, fun _ => .inl (hrewritten _)⟩)
    have hfile : ∀ f', s.file (s.setFile w.disk f') = f' := s.file_setFile _
    have hcoh : Coherent s (s.setFile w.disk (LogFile.written s.kind (seqOf c.records)
        (some c.records) (env.clock w.ticks))) w.mem := by
      intro c' hc'
      rw [hready.cached] at hc'
      injection hc' with hc'
      rw [hfile, ← hc']
      exact hready.ok.congr (hrewritten _).table_nil
    refine wp.bind (ensureCacheFresh_spec (by simpa using hcoh)) ?_ ?_
    · rintro c' w' ⟨rfl, hready'⟩
      have hok' : CacheOk s.kind (s.file w.disk) c' := by
        have := hready'.ok
        simp only [disk_stepped, hfile] at this
        exact this.congr (hrewritten _).table_nil.symm
      exact appendAndInsert_spec rfl rfl (hrewritten _) hok' (tail_subset _) hfresh hid
    simp [loadable_written_nil, hnil]

/-- **Writing a log as a whole** caches what it wrote; a crash inside leaves the old file or the
new one. -/
theorem persistLog_spec (seq : Nat) (hnodup : (records.map s.kind.id).Nodup)
    (hsorted : SortedBy s.kind.sortKey records) :
    wp (persistLog env s seq records) (fun _ w' => ∃ now c', SlotPut env s w w'
          (.written s.kind seq (some records) now) c' ∧ c'.records = records)
      (fun _ w' => w.faults ≠ [] ∧ (w'.disk = w.disk ∨ ∃ now, w'.disk =
        s.setFile w.disk (.written s.kind seq (some records) now))) w := by
  unfold persistLog writeLog updateCache setCached
  rw [wp_bind]
  refine wp_atomicStep ?_ (fun hf => ⟨hf, .inl rfl⟩) (fun hf => ⟨hf, .inr ⟨_, rfl⟩⟩)
  simp only [wp_bind, wp_get, wp_modify, disk_stepped, mem_stepped]
  refine ⟨_, _, ⟨rfl, rfl, ⟨s.cache_setCache _ _, ⟨?_, hsorted, fun h => absurd h (by simp)⟩,
    .inr rfl⟩, tail_subset _⟩, rfl⟩
  rw [s.file_setFile, table_written hnodup]

/-- Syncing a log changes nothing but its being synced. -/
theorem syncLog_spec : wp (syncLog env s)
      (fun _ w' => w' = w.stepped (s.setFile w.disk (s.file w.disk).sync))
      (fun _ w' => w.faults ≠ [] ∧ (w' = w.stepped w.disk ∨
        w' = w.stepped (s.setFile w.disk (s.file w.disk).sync))) w :=
  wp_atomicStep rfl (fun hf => ⟨hf, .inl rfl⟩) (fun hf => ⟨hf, .inr rfl⟩)

end Holo.Storage
