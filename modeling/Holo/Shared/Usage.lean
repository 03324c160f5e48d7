/-
Holo.Shared.Usage — the used bytes of a cartridge, which both programs record.

The data plane records the used bytes of a loaded cartridge in its metadata file.  The control
plane copies them to its database when it reconciles, and writes its row back to the file when it
synchronises the slots of a library.  Its requests run beside each other and beside the data
plane: a request is a task that takes one step at a time, each reading or writing one file or
row, and holds what it has read before.

What a slot synchronisation writes is what some reconciliation has read, so that the order of the
two programs decides.  `Phase` follows a run and says where the database stands: behind the file,
catching up with it, or current.

Main results:
* `Task.next_holds`: a step of a request while the database is current;
* `CatchingUp.next`: a step of the reconciliation that makes it current;
* `usage_kept`: over every run in which no slot synchronisation starts while the database is
  behind, the file gives the usage that was recorded last.
-/
import Holo.Shared.Metadata

namespace Holo.Shared

open Function Lib List

/-! ## §1. Requests of the control plane. -/

/-- A row of `virtual_cartridges`, as far as the two requests look at it. -/
structure CartridgeRow where
  cartridge : VirtualCartridge
  libraryId : List Char
  /-- `LifecycleState` is `CartridgeRetired`. -/
  retired : Bool
  deriving DecidableEq

/-- A request of the control plane, with what it has read and still has to do. -/
inductive Task where
  /-- `syncLibrarySlotsToSharedState` in `repairLegacyAssignedSlots`, which may save the rows it
  has listed. -/
  | syncRepair (todo : List CartridgeRow) (libraryId : List Char)
  /-- The cartridges whose metadata are to be written. -/
  | sync (todo : List VirtualCartridge)
  /-- In `writeCartridgeMetadata`, after the file was read: the labels whose files are still to be
  replaced. -/
  | write (c : VirtualCartridge) (seen : Option (List Char)) (labels : List Line)
      (todo : List VirtualCartridge)
  /-- `reconcileMediaState` in `repairLegacyAssignedSlots`. -/
  | reconcileRepair (todo rows : List CartridgeRow)
  /-- The rows to be compared with their files. -/
  | reconcile (todo : List CartridgeRow)
  /-- A row to be saved. -/
  | save (row : CartridgeRow) (todo : List CartridgeRow)
  deriving DecidableEq

/-- Both programs. -/
structure Planes where
  shared : SharedState
  /-- `virtual_cartridges`. -/
  rows : List CartridgeRow
  tasks : List Task
  /-- The used bytes the data plane has written last, by file. -/
  recorded : List Char → Option Nat

/-- `readCartridgeMetadata`: the first file it finds. -/
def metadataSeen (files : List Char → Option (List Char)) (c : VirtualCartridge) :
    Option (List Char) :=
  (cartridgeMetadataLabels c).findSome? fun label => files (sanitizeStateId label.1)

/-- What `reconcileMediaState` makes of a row when it has found this in the file. -/
def reconciled (row : CartridgeRow) (seen : Option (List Char)) : CartridgeRow :=
  match seen.map readCartridgeMetadata with
  | none => row
  | some m =>
    { row with
      cartridge :=
        { row.cartridge with
          capacityBytes :=
            if 0 < m.capacityBytes then m.capacityBytes else row.cartridge.capacityBytes
          usedBytes := if 0 ≤ m.usedBytes then m.usedBytes else row.cartridge.usedBytes } }

def saveCartridge (rows : List CartridgeRow) (row : CartridgeRow) : List CartridgeRow :=
  if rows.any (fun r => r.cartridge.cartridgeId = row.cartridge.cartridgeId) then
    rows.map fun r => if r.cartridge.cartridgeId = row.cartridge.cartridgeId then row else r
  else rows ++ [row]

/-- The next step of a task: what is in the files and rows after it, and what is left of the task.
`repairs` says whether a row without a slot is given one, and saved. -/
def Task.next (repairs : Bool) (files : List Char → Option (List Char)) (rows : List CartridgeRow) :
    Task → (List Char → Option (List Char)) × List CartridgeRow × Option Task
  | .syncRepair (row :: todo) libraryId =>
    (files, if repairs then saveCartridge rows row else rows, some (.syncRepair todo libraryId))
  | .syncRepair [] libraryId =>
    (files, rows, some (.sync ((rows.filter fun r => r.libraryId = libraryId).map (·.cartridge))))
  | .sync (c :: todo) =>
    (files, rows, some (.write c (metadataSeen files c) (cartridgeMetadataLabels c) todo))
  | .sync [] => (files, rows, none)
  | .write c seen (label :: labels) todo =>
    (update files (sanitizeStateId label.1) (some (cartridgeMetadataPayload c seen)), rows,
      some (.write c seen labels todo))
  | .write _ _ [] todo => (files, rows, some (.sync todo))
  | .reconcileRepair (row :: todo) listed =>
    (files, if repairs then saveCartridge rows row else rows, some (.reconcileRepair todo listed))
  | .reconcileRepair [] listed => (files, rows, some (.reconcile listed))
  | .reconcile (row :: todo) =>
    (files, rows, some (if row.retired then .reconcile todo
      else .save (reconciled row (metadataSeen files row.cartridge)) todo))
  | .reconcile [] => (files, rows, none)
  | .save row todo => (files, saveCartridge rows row, some (.reconcile todo))

/-! ## §2. Steps and runs. -/

/-- What happens next. -/
inductive PlaneEvent where
  /-- The data plane synchronises the usage of a drive. -/
  | usage (d : DriveUsage) (force : Bool) (seen : Option (List Char))
  /-- A slot synchronisation of a library starts, and lists its cartridges. -/
  | startSync (libraryId : List Char)
  /-- A reconciliation starts, and lists the cartridges. -/
  | startReconcile
  /-- A task takes its next step. -/
  | proceed (i : Nat) (repairs : Bool)
  /-- A task ends early: it has failed, or the library has no drive. -/
  | stop (i : Nat)

/-- Both programs after one step. -/
def Planes.step (env : SharedEnv) (s : Planes) : PlaneEvent → Planes
  | .usage d force seen =>
    { s with
      shared := s.shared.step env (.usage d force seen)
      recorded := match usageToSync env s.shared d force seen with
        | none => s.recorded
        | some u => update s.recorded (sanitizeId u.cartridgeId.1) (some u.usedBytes) }
  | .startSync libraryId =>
    { s with
      tasks := s.tasks ++
        [.syncRepair (s.rows.filter fun r => r.libraryId = libraryId) libraryId] }
  | .startReconcile => { s with tasks := s.tasks ++ [.reconcileRepair s.rows s.rows] }
  | .proceed i repairs =>
    match s.tasks[i]? with
    | none => s
    | some task =>
      let after := task.next repairs s.shared.files s.rows
      { s with
        shared := { s.shared with files := after.1 }
        rows := after.2.1
        tasks := match after.2.2 with
          | none => s.tasks.eraseIdx i
          | some task' => s.tasks.set i task' }
  | .stop i => { s with tasks := s.tasks.eraseIdx i }

/-- Both programs after some steps. -/
def Planes.run (env : SharedEnv) (s : Planes) (es : List PlaneEvent) : Planes :=
  es.foldl (Planes.step env) s

/-! ## §3. The usage in a file. -/

/-- The used bytes a file gives. -/
def usedEntry (raw : List Char) : Option (List Char) :=
  lastValue "used_bytes".toList (entries raw)

/-- The used bytes `writeCartridgeMetadata` writes. -/
def writtenUsedBytes (c : VirtualCartridge) (seen : Option (List Char)) : Int :=
  match seen.map readCartridgeMetadata with
  | some m => if c.usedBytes = 0 ∧ 0 < m.usedBytes then m.usedBytes else c.usedBytes
  | none => c.usedBytes

theorem usedEntry_usage (cartridgeId : Line) (capacityBytes : Option Nat) (usedBytes : Nat) :
    usedEntry (sharedMetadataPayload cartridgeId capacityBytes usedBytes) =
      some (decimal usedBytes).1 := by
  unfold usedEntry sharedMetadataPayload
  rw [entries_writeEntries]
  · exact lastValue_concat _ _ [_, _]
  intro e he
  simp only [mem_cons, not_mem_nil, or_false] at he
  rcases he with rfl | rfl | rfl
  · exact ⟨plainKey_metadata _ (by simp), Line.trim_trim _⟩
  · exact ⟨plainKey_metadata _ (by simp), trim_decimal _⟩
  · exact ⟨plainKey_metadata _ (by simp), trim_decimal _⟩

theorem usedEntry_control (c : VirtualCartridge) (seen : Option (List Char)) :
    usedEntry (cartridgeMetadataPayload c seen) =
      some (signedDecimal (writtenUsedBytes c seen)).1 := by
  unfold usedEntry cartridgeMetadataPayload
  rw [entries_writeEntries]
  · exact lastValue_concat _ _ [_, _, _]
  intro e he
  simp only [mem_cons, not_mem_nil, or_false] at he
  rcases he with rfl | rfl | rfl | rfl
  · exact ⟨plainKey_metadata _ (by simp), Line.trim_trim _⟩
  · exact ⟨plainKey_metadata _ (by simp), Line.trim_trim _⟩
  · exact ⟨plainKey_metadata _ (by simp), trim_signedDecimal _⟩
  · exact ⟨plainKey_metadata _ (by simp), trim_signedDecimal _⟩

/-- The control plane reads the number of the last `used_bytes` line. -/
theorem usedBytes_of_usedEntry {raw value : List Char} {n : Int}
    (h : usedEntry raw = some value) (hn : parseI64 value = some n) :
    (readCartridgeMetadata raw).usedBytes = n := by
  unfold usedEntry lastValue at h
  unfold readCartridgeMetadata
  -- the last line with the key decides both folds
  generalize entries raw = es at h ⊢
  induction es using reverseRecOn with
  | nil => cases h
  | append_singleton es e ih =>
    rw [foldl_append, foldl_cons, foldl_nil] at h ⊢
    by_cases hkey : e.1 = "used_bytes".toList
    · rw [if_pos hkey] at h
      obtain rfl : e.2 = value := Option.some.inj h
      have hother : e.1 ≠ "capacity_bytes".toList := by
        rw [hkey]
        decide
      rw [hn]
      dsimp only
      rw [if_neg hother, if_pos hkey]
    · rw [if_neg hkey] at h
      rw [← ih h]
      cases parseI64 e.2 with
      | none => rfl
      | some m =>
        dsimp only
        rw [if_neg hkey]
        split <;> rfl

/-- The usage the file gives, as the control plane reads it. -/
theorem usedBytes_of_decimal {raw : List Char} {v : Nat} (h : usedEntry raw = some (decimal v).1)
    (hv : v < 2 ^ 63) : (readCartridgeMetadata raw).usedBytes = v :=
  usedBytes_of_usedEntry h (parseI64_decimal hv)

/-! ## §4. The order of the two programs. -/

variable (key : List Char) (u : Option Nat)

/-- The usage that was recorded last is in the file. -/
def KeepsUsage (s : Planes) : Prop :=
  ∀ v, s.recorded key = some v →
    ∃ raw, s.shared.files key = some raw ∧ usedEntry raw = some (decimal v).1

/-- The file is one of the cartridge's. -/
def Names (c : VirtualCartridge) : Prop :=
  ∃ label ∈ cartridgeMetadataLabels c, sanitizeStateId label.1 = key

/-- If the file is the cartridge's, it is the only one: its id and its barcode, if they are two
labels, stand for the same file. -/
def OneFile (c : VirtualCartridge) : Prop :=
  Names key c → ∀ label ∈ cartridgeMetadataLabels c, sanitizeStateId label.1 = key

/-- The row of a cartridge that is reconciled, and has one file. -/
def OwnRow (row : CartridgeRow) : Prop :=
  OneFile key row.cartridge ∧ (Names key row.cartridge → row.retired = false)

/-- What an event records in the file. -/
def recordsAt (env : SharedEnv) (s : Planes) : PlaneEvent → Option Nat
  | .usage d force seen =>
    ((usageToSync env s.shared d force seen).filter fun u => sanitizeId u.cartridgeId.1 = key).map
      (·.usedBytes)
  | _ => none

/-- Where the database stands. -/
inductive Phase where
  /-- A usage was recorded that it has not. -/
  | behind
  /-- A reconciliation that takes it over is running, and nothing else is. -/
  | catchingUp
  /-- It has been taken over. -/
  | current
  deriving DecidableEq

/-- The order that keeps the usage.  The data plane records a usage of the cartridge while no
request is running, and one that the database has a number for.  Then no slot synchronisation
starts before a reconciliation has started and come to its end, with no other request beside it.
From then on slot synchronisations and reconciliations may start, run beside each other and fail,
until the data plane records again. -/
def Phase.after (env : SharedEnv) (s : Planes) (phase : Phase) (e : PlaneEvent) : Option Phase :=
  match recordsAt key env s e with
  | some v => if s.tasks = [] ∧ v < 2 ^ 63 then some .behind else none
  | none =>
    match phase, e with
    | .behind, .startSync _ | .catchingUp, .startSync _ | .catchingUp, .startReconcile => none
    | .behind, .startReconcile => some .catchingUp
    | .catchingUp, .proceed _ _ =>
      some (if (s.step env e).tasks = [] then .current else .catchingUp)
    | .catchingUp, .stop _ => some (if (s.step env e).tasks = [] then .behind else .catchingUp)
    | phase, _ => some phase

/-- Where the database stands after some steps in that order. -/
def phaseAfter (env : SharedEnv) : Planes → Phase → List PlaneEvent → Option Phase
  | _, phase, [] => some phase
  | s, phase, e :: es =>
    (phase.after key env s e).bind fun next => phaseAfter env (s.step env e) next es

/-! ## §5. While the database is current. -/

/-- The cartridge's usage is the one that was recorded last. -/
def Current (c : VirtualCartridge) : Prop :=
  Names key c → ∀ v, u = some v → c.usedBytes = v

/-- So it is in a row that has one file and is reconciled. -/
def UpToDate (row : CartridgeRow) : Prop := OwnRow key row ∧ Current key u row.cartridge

/-- The file gives that usage, and the database has a number for it. -/
def FileGives (files : List Char → Option (List Char)) : Prop :=
  ∀ v, u = some v → v < 2 ^ 63 ∧ ∃ raw, files key = some raw ∧ usedEntry raw = some (decimal v).1

/-- What a request holds is current. -/
def Task.Holds : Task → Prop
  | .syncRepair todo _ => ∀ r ∈ todo, UpToDate key u r
  | .sync todo => ∀ c ∈ todo, OneFile key c ∧ Current key u c
  | .write c seen labels todo =>
    (OneFile key c ∧ Current key u c) ∧ labels ⊆ cartridgeMetadataLabels c ∧
      (Names key c → u = some 0 → ∀ raw, seen = some raw →
        (readCartridgeMetadata raw).usedBytes ≤ 0) ∧
      ∀ c ∈ todo, OneFile key c ∧ Current key u c
  | .reconcileRepair todo listed =>
    (∀ r ∈ todo, UpToDate key u r) ∧ ∀ r ∈ listed, UpToDate key u r
  | .reconcile todo => ∀ r ∈ todo, UpToDate key u r
  | .save row todo => UpToDate key u row ∧ ∀ r ∈ todo, UpToDate key u r

variable {key : List Char} {u : Option Nat} {files : List Char → Option (List Char)}
  {rows : List CartridgeRow} {repairs : Bool}

theorem mem_saveCartridge {row r : CartridgeRow} (h : r ∈ saveCartridge rows row) :
    r = row ∨ r ∈ rows ∧ r.cartridge.cartridgeId ≠ row.cartridge.cartridgeId := by
  unfold saveCartridge at h
  split at h
  · obtain ⟨r', hr', hr⟩ := mem_map.mp h
    split at hr
    · exact .inl hr.symm
    · next hne =>
      subst hr
      exact .inr ⟨hr', hne⟩
  · next hnew =>
    rcases mem_append.mp h with hold | hrow
    · refine .inr ⟨hold, fun heq => hnew ?_⟩
      exact any_eq_true.mpr ⟨r, hold, decide_eq_true heq⟩
    · exact .inl (mem_singleton.mp hrow)

theorem forall_mem_saveCartridge {P : CartridgeRow → Prop} {row : CartridgeRow} (hrow : P row)
    (hrows : ∀ r ∈ rows, P r) : ∀ r ∈ saveCartridge rows row, P r := by
  intro r hr
  rcases mem_saveCartridge hr with rfl | ⟨hold, -⟩
  · exact hrow
  · exact hrows r hold

/-- The metadata of a cartridge with one file are read from it. -/
theorem metadataSeen_eq {c : VirtualCartridge} {raw : List Char} (hone : OneFile key c)
    (hnames : Names key c) (hfile : files key = some raw) : metadataSeen files c = some raw := by
  have hall := hone hnames
  obtain ⟨label, hlabel, -⟩ := hnames
  unfold metadataSeen
  cases hlabels : cartridgeMetadataLabels c with
  | nil =>
    rw [hlabels] at hlabel
    cases hlabel
  | cons first rest =>
    have hfirst := hall first (by rw [hlabels]; exact mem_cons_self)
    rw [findSome?_cons, hfirst, hfile]

theorem labels_reconciled (row : CartridgeRow) (seen : Option (List Char)) :
    cartridgeMetadataLabels (reconciled row seen).cartridge =
        cartridgeMetadataLabels row.cartridge ∧ (reconciled row seen).retired = row.retired ∧
      (reconciled row seen).cartridge.cartridgeId = row.cartridge.cartridgeId := by
  cases seen with
  | none | some => exact ⟨rfl, rfl, rfl⟩

theorem OwnRow.reconciled {row : CartridgeRow} (h : OwnRow key row) (seen : Option (List Char)) :
    OwnRow key (reconciled row seen) := by
  obtain ⟨hlabels, hretired, -⟩ := labels_reconciled row seen
  unfold OwnRow OneFile Names at h ⊢
  rw [hlabels, hretired]
  exact h

/-- **A reconciled row is current.** -/
theorem current_reconciled {row : CartridgeRow} (h : OwnRow key row)
    (hfile : FileGives key u files) :
    Current key u (reconciled row (metadataSeen files row.cartridge)).cartridge := by
  intro hnames v hv
  obtain ⟨hlabels, -, -⟩ := labels_reconciled row (metadataSeen files row.cartridge)
  have hnames : Names key row.cartridge := by
    unfold Names at hnames
    rwa [hlabels] at hnames
  obtain ⟨hfits, raw, hraw, hused⟩ := hfile v hv
  have hread := usedBytes_of_decimal hused hfits
  rw [metadataSeen_eq h.1 hnames hraw]
  show (if 0 ≤ (readCartridgeMetadata raw).usedBytes then _ else _) = (v : Int)
  rw [hread, if_pos (Int.natCast_nonneg v)]

/-- **A write of a request that holds the usage** puts it into the file. -/
theorem fileGives_write {c : VirtualCartridge} {seen : Option (List Char)} {label : Line}
    (hcurrent : Current key u c) (hlabel : label ∈ cartridgeMetadataLabels c)
    (hseen : Names key c → u = some 0 → ∀ raw, seen = some raw →
      (readCartridgeMetadata raw).usedBytes ≤ 0)
    (hfile : FileGives key u files) :
    FileGives key u
      (update files (sanitizeStateId label.1) (some (cartridgeMetadataPayload c seen))) := by
  intro v hv
  obtain ⟨hfits, raw, hraw, hused⟩ := hfile v hv
  refine ⟨hfits, ?_⟩
  by_cases hkey : sanitizeStateId label.1 = key
  · have hnames : Names key c := ⟨label, hlabel, hkey⟩
    have hrow := hcurrent hnames v hv
    have hwritten : writtenUsedBytes c seen = v := by
      unfold writtenUsedBytes
      cases seen with
      | none => exact hrow
      | some raw' =>
        -- the file that was read decides only where the usage is zero
        dsimp only [Option.map_some]
        split
        · next hzero =>
          have hv0 : v = 0 := by omega
          have hnot := hseen hnames (hv.trans (congrArg some hv0)) raw' rfl
          omega
        · exact hrow
    refine ⟨_, by rw [hkey, update_self], ?_⟩
    rw [usedEntry_control, hwritten]
    exact congrArg (fun l : Line => some l.1) (signedDecimal_eq_decimal_iff.mpr rfl)
  · exact ⟨raw, by rw [update_of_ne (Ne.symm hkey), hraw], hused⟩

/-- What a step of a request leaves while the database is current. -/
structure StepHolds (key : List Char) (u : Option Nat)
    (after : (List Char → Option (List Char)) × List CartridgeRow × Option Task) : Prop where
  file : FileGives key u after.1
  rows : ∀ r ∈ after.2.1, UpToDate key u r
  task : ∀ task ∈ after.2.2, task.Holds key u

/-- **A step of a request while the database is current.** -/
theorem Task.next_holds {task : Task} (h : task.Holds key u) (hfile : FileGives key u files)
    (hrows : ∀ r ∈ rows, UpToDate key u r) :
    StepHolds key u (task.next repairs files rows) := by
  have hsave : ∀ {row : CartridgeRow}, UpToDate key u row →
      ∀ r ∈ (if repairs then saveCartridge rows row else rows), UpToDate key u r := by
    intro row hrow
    split
    · exact forall_mem_saveCartridge hrow hrows
    · exact hrows
  -- only `write` replaces a file, and what it writes is not behind it
  cases task with
  | syncRepair todo libraryId =>
    cases todo with
    | cons row todo =>
      obtain ⟨hrow, htodo⟩ := forall_mem_cons.mp h
      refine ⟨hfile, hsave hrow, ?_⟩
      rintro _ ⟨⟩
      exact htodo
    | nil =>
      refine ⟨hfile, hrows, ?_⟩
      rintro _ ⟨⟩
      intro c hc
      obtain ⟨r, hr, rfl⟩ := mem_map.mp hc
      have hlisted := hrows r (mem_of_mem_filter hr)
      exact ⟨hlisted.1.1, hlisted.2⟩
  | sync todo =>
    cases todo with
    | nil => exact ⟨hfile, hrows, fun _ hnone => by cases hnone⟩
    | cons c todo =>
      obtain ⟨hc, htodo⟩ := forall_mem_cons.mp h
      refine ⟨hfile, hrows, ?_⟩
      rintro _ ⟨⟩
      refine ⟨hc, Subset.refl _, ?_, htodo⟩
      intro hnames hzero raw hraw
      obtain ⟨hfits, raw', hraw', hused⟩ := hfile 0 hzero
      rw [metadataSeen_eq hc.1 hnames hraw'] at hraw
      cases hraw
      exact (usedBytes_of_decimal hused hfits).le
  | write c seen labels todo =>
    obtain ⟨hc, hlabels, hseen, htodo⟩ := h
    cases labels with
    | nil =>
      refine ⟨hfile, hrows, ?_⟩
      rintro _ ⟨⟩
      exact htodo
    | cons label labels =>
      refine ⟨fileGives_write hc.2 (hlabels mem_cons_self) hseen hfile, hrows, ?_⟩
      rintro _ ⟨⟩
      exact ⟨hc, Subset.trans (subset_cons_self _ _) hlabels, hseen, htodo⟩
  | reconcileRepair todo listed =>
    obtain ⟨htodo, hlisted⟩ := h
    cases todo with
    | cons row todo =>
      obtain ⟨hrow, htodo⟩ := forall_mem_cons.mp htodo
      refine ⟨hfile, hsave hrow, ?_⟩
      rintro _ ⟨⟩
      exact ⟨htodo, hlisted⟩
    | nil =>
      refine ⟨hfile, hrows, ?_⟩
      rintro _ ⟨⟩
      exact hlisted
  | reconcile todo =>
    cases todo with
    | nil => exact ⟨hfile, hrows, fun _ hnone => by cases hnone⟩
    | cons row todo =>
      obtain ⟨hrow, htodo⟩ := forall_mem_cons.mp h
      refine ⟨hfile, hrows, ?_⟩
      rintro _ ⟨⟩
      split
      · exact htodo
      · exact ⟨⟨hrow.1.reconciled _, current_reconciled hrow.1 hfile⟩, htodo⟩
  | save row todo =>
    obtain ⟨hrow, htodo⟩ := h
    refine ⟨hfile, forall_mem_saveCartridge hrow hrows, ?_⟩
    rintro _ ⟨⟩
    exact htodo

/-! ## §6. While it catches up. -/

/-- The reconciliation that makes the database current: every row is current or still to be
reconciled. -/
def CatchingUp (key : List Char) (u : Option Nat) (rows : List CartridgeRow) : Task → Prop
  | .reconcileRepair todo listed => todo ⊆ listed ∧ rows ⊆ listed ∧ ∀ r ∈ listed, OwnRow key r
  | .reconcile todo =>
    (∀ r ∈ rows, Current key u r.cartridge ∨ r ∈ todo) ∧ ∀ r ∈ todo, OwnRow key r
  | .save row todo =>
    UpToDate key u row ∧
      (∀ r ∈ rows, Current key u r.cartridge ∨
        r.cartridge.cartridgeId = row.cartridge.cartridgeId ∨ r ∈ todo) ∧
      ∀ r ∈ todo, OwnRow key r
  | _ => False

/-- What a step of that reconciliation leaves: it goes on, or it has come to its end with every
row current. -/
structure StepCatches (key : List Char) (u : Option Nat) (files : List Char → Option (List Char))
    (after : (List Char → Option (List Char)) × List CartridgeRow × Option Task) : Prop where
  file : after.1 = files
  rows : ∀ r ∈ after.2.1, OwnRow key r
  task : match after.2.2 with
    | some task => CatchingUp key u after.2.1 task
    | none => ∀ r ∈ after.2.1, Current key u r.cartridge

/-- **A step of the reconciliation that catches up.** -/
theorem CatchingUp.next {task : Task} (h : CatchingUp key u rows task)
    (hfile : FileGives key u files) (hrows : ∀ r ∈ rows, OwnRow key r) :
    StepCatches key u files (task.next repairs files rows) := by
  cases task with
  | syncRepair | sync | write => exact h.elim
  | reconcileRepair todo listed =>
    obtain ⟨htodo, hlisted, hown⟩ := h
    cases todo with
    | nil => exact ⟨rfl, hrows, fun r hr => .inr (hlisted hr), hown⟩
    | cons row todo =>
      have hrow : row ∈ listed := htodo mem_cons_self
      have hsub : (if repairs then saveCartridge rows row else rows) ⊆ listed := by
        split
        · exact forall_mem_saveCartridge (P := (· ∈ listed)) hrow hlisted
        · exact hlisted
      exact ⟨rfl, fun r hr => hown r (hsub hr), Subset.trans (subset_cons_self _ _) htodo, hsub,
        hown⟩
  | reconcile todo =>
    obtain ⟨hleft, hown⟩ := h
    cases todo with
    | nil => exact ⟨rfl, hrows, fun r hr => (hleft r hr).resolve_right not_mem_nil⟩
    | cons row todo =>
      obtain ⟨hrow, htodo⟩ := forall_mem_cons.mp hown
      refine ⟨rfl, hrows, ?_⟩
      dsimp only [Task.next]
      split
      · next hretired =>
        -- a retired row is skipped: the file is not one of its cartridge's
        refine ⟨fun r hr => ?_, htodo⟩
        rcases hleft r hr with hcur | hmem
        · exact .inl hcur
        rcases mem_cons.mp hmem with rfl | hmem
        · exact .inl fun hnames => absurd (hrow.2 hnames) (by simp [hretired])
        · exact .inr hmem
      · refine ⟨⟨hrow.reconciled _, current_reconciled hrow hfile⟩, fun r hr => ?_, htodo⟩
        rcases hleft r hr with hcur | hmem
        · exact .inl hcur
        rcases mem_cons.mp hmem with rfl | hmem
        · exact .inr (.inl (labels_reconciled r _).2.2.symm)
        · exact .inr (.inr hmem)
  | save row todo =>
    obtain ⟨hrow, hleft, hown⟩ := h
    refine ⟨rfl, forall_mem_saveCartridge hrow.1 hrows, fun r hr => ?_, hown⟩
    rcases mem_saveCartridge hr with rfl | ⟨hold, hne⟩
    · exact .inl hrow.2
    rcases hleft r hold with hcur | heq | hmem
    · exact .inl hcur
    · exact absurd heq hne
    · exact .inr hmem

/-! ## §7. Runs. -/

/-- What holds in each phase. -/
def PhaseInv (key : List Char) (s : Planes) : Phase → Prop
  | .behind => s.tasks = []
  | .catchingUp => ∃ task, s.tasks = [task] ∧ CatchingUp key (s.recorded key) s.rows task
  | .current => (∀ r ∈ s.rows, Current key (s.recorded key) r.cartridge) ∧
      ∀ task ∈ s.tasks, task.Holds key (s.recorded key)

/-- What holds of both programs over a run in order. -/
structure OrderInv (key : List Char) (s : Planes) (phase : Phase) : Prop where
  file : FileGives key (s.recorded key) s.shared.files
  own : ∀ r ∈ s.rows, OwnRow key r
  phase : PhaseInv key s phase

variable {env : SharedEnv} {s : Planes} {phase next : Phase}

theorem OrderInv.record {d : DriveUsage} {force : Bool} {seen : Option (List Char)} {v : Nat}
    (h : OrderInv key s phase) (hv : recordsAt key env s (.usage d force seen) = some v)
    (htasks : s.tasks = []) (hfits : v < 2 ^ 63) :
    OrderInv key (s.step env (.usage d force seen)) .behind := by
  obtain ⟨w, hw, rfl⟩ := Option.map_eq_some_iff.mp hv
  obtain ⟨hsync, hkey⟩ := Option.filter_eq_some_iff.mp hw
  have hkey : sanitizeId w.cartridgeId.1 = key := of_decide_eq_true hkey
  refine ⟨?_, h.own, htasks⟩
  intro v hrec
  dsimp only [Planes.step, SharedState.step] at hrec ⊢
  rw [hsync] at hrec ⊢
  dsimp only at hrec ⊢
  rw [hkey, update_self] at hrec ⊢
  cases hrec
  exact ⟨hfits, _, rfl, usedEntry_usage _ _ _⟩

/-- A usage synchronisation that does not record one of this cartridge. -/
theorem OrderInv.other {d : DriveUsage} {force : Bool} {seen : Option (List Char)}
    (h : OrderInv key s phase) (hnone : recordsAt key env s (.usage d force seen) = none) :
    OrderInv key (s.step env (.usage d force seen)) phase := by
  have hsame : (s.step env (.usage d force seen)).recorded key = s.recorded key ∧
      (s.step env (.usage d force seen)).shared.files key = s.shared.files key := by
    dsimp only [Planes.step, SharedState.step]
    cases hsync : usageToSync env s.shared d force seen with
    | none => exact ⟨rfl, rfl⟩
    | some w =>
      have hne : key ≠ sanitizeId w.cartridgeId.1 := by
        rintro rfl
        simp [recordsAt, hsync] at hnone
      exact ⟨update_of_ne hne _ _, update_of_ne hne _ _⟩
  refine ⟨?_, h.own, ?_⟩
  · have hfile := h.file
    unfold FileGives at hfile ⊢
    rw [hsame.1, hsame.2]
    exact hfile
  · have hphase := h.phase
    cases phase with
    | behind => exact hphase
    | catchingUp | current =>
      unfold PhaseInv at hphase ⊢
      rw [hsame.1]
      exact hphase

theorem step_proceed {i : Nat} {task : Task} (htask : s.tasks[i]? = some task) :
    s.step env (.proceed i repairs) =
      { s with
        shared := { s.shared with files := (task.next repairs s.shared.files s.rows).1 }
        rows := (task.next repairs s.shared.files s.rows).2.1
        tasks := match (task.next repairs s.shared.files s.rows).2.2 with
          | none => s.tasks.eraseIdx i
          | some task' => s.tasks.set i task' } := by
  dsimp only [Planes.step]
  rw [htask]

theorem step_proceed_none {i : Nat} (htask : s.tasks[i]? = none) :
    s.step env (.proceed i repairs) = s := by
  dsimp only [Planes.step]
  rw [htask]

theorem OrderInv.proceed_current {i : Nat} (h : OrderInv key s .current) :
    OrderInv key (s.step env (.proceed i repairs)) .current := by
  cases htask : s.tasks[i]? with
  | none =>
    rw [step_proceed_none htask]
    exact h
  | some task =>
    obtain ⟨hcur, htasks⟩ := h.phase
    have hnext : StepHolds key (s.recorded key) (task.next repairs s.shared.files s.rows) :=
      Task.next_holds (htasks task (mem_of_getElem? htask)) h.file
        fun r hr => ⟨h.own r hr, hcur r hr⟩
    rw [step_proceed htask]
    refine ⟨hnext.file, fun r hr => (hnext.rows r hr).1, fun r hr => (hnext.rows r hr).2, ?_⟩
    intro task' hmem
    dsimp only at hmem
    split at hmem
    · exact htasks task' (mem_of_mem_eraseIdx hmem)
    · next new hnew =>
      rcases mem_or_eq_of_mem_set hmem with hold | rfl
      · exact htasks task' hold
      · exact hnext.task task' hnew

theorem OrderInv.proceed_catchingUp {i : Nat} (h : OrderInv key s .catchingUp) :
    OrderInv key (s.step env (.proceed i repairs))
      (if (s.step env (.proceed i repairs)).tasks = [] then .current else .catchingUp) := by
  obtain ⟨task, htasks, hcatch⟩ := h.phase
  -- the reconciliation is the only task
  by_cases hi : i = 0
  swap
  · have hnone : s.tasks[i]? = none := by
      rw [htasks, getElem?_eq_none_iff]
      show 1 ≤ i
      omega
    rw [step_proceed_none hnone, if_neg (by rw [htasks]; simp)]
    exact h
  subst hi
  have htask : s.tasks[0]? = some task := by rw [htasks]; rfl
  rw [step_proceed htask]
  set after := task.next repairs s.shared.files s.rows
  have hnext : StepCatches key (s.recorded key) s.shared.files after := hcatch.next h.file h.own
  have hfile : FileGives key (s.recorded key) after.1 := by
    rw [hnext.file]
    exact h.file
  have htodo := hnext.task
  dsimp only
  cases hleft : after.2.2 with
  | none =>
    rw [hleft] at htodo
    dsimp only at htodo ⊢
    have hempty : [task].eraseIdx 0 = [] := rfl
    rw [htasks, if_pos hempty]
    exact ⟨hfile, hnext.rows, htodo, fun _ hmem => by cases hmem⟩
  | some task' =>
    rw [hleft] at htodo
    dsimp only at htodo ⊢
    rw [htasks, if_neg (by simp)]
    exact ⟨hfile, hnext.rows, task', rfl, htodo⟩

theorem OrderInv.stop {i : Nat} (h : OrderInv key s phase) :
    OrderInv key (s.step env (.stop i)) (match phase with
      | .catchingUp => if (s.step env (.stop i)).tasks = [] then .behind else .catchingUp
      | phase => phase) := by
  refine ⟨h.file, h.own, ?_⟩
  have hphase := h.phase
  cases phase with
  | behind =>
    show s.tasks.eraseIdx i = []
    rw [show s.tasks = [] from hphase]
    rfl
  | current => exact ⟨hphase.1, fun task hmem => hphase.2 task (mem_of_mem_eraseIdx hmem)⟩
  | catchingUp =>
    obtain ⟨task, htasks, hcatch⟩ := hphase
    dsimp only
    split
    · next hempty => exact hempty
    next hne =>
    refine ⟨task, ?_, hcatch⟩
    show s.tasks.eraseIdx i = [task]
    have hne : s.tasks.eraseIdx i ≠ [] := hne
    rw [htasks] at hne ⊢
    cases i with
    | zero => exact absurd rfl hne
    | succ i => rfl

/-- **One step in order.** -/
theorem OrderInv.step (h : OrderInv key s phase) {e : PlaneEvent}
    (hnext : phase.after key env s e = some next) : OrderInv key (s.step env e) next := by
  unfold Phase.after at hnext
  -- the event records a usage of the cartridge, or it moves the run along its phase
  cases hrec : recordsAt key env s e with
  | some v =>
    rw [hrec] at hnext
    dsimp only at hnext
    split at hnext
    · next hquiet =>
      cases hnext
      cases e with
      | usage d force seen => exact h.record hrec hquiet.1 hquiet.2
      | startSync | startReconcile | proceed | stop => cases hrec
    · cases hnext
  | none =>
    rw [hrec] at hnext
    have hphase := h.phase
    cases e with
    | usage d force seen =>
      have hsame : next = phase := by
        cases phase <;> cases hnext <;> rfl
      rw [hsame]
      exact h.other hrec
    | startSync libraryId =>
      cases phase with
      | behind | catchingUp => cases hnext
      | current =>
        cases hnext
        refine ⟨h.file, h.own, hphase.1, fun task hmem => ?_⟩
        rcases mem_append.mp hmem with hold | hnew
        · exact hphase.2 task hold
        · obtain rfl := mem_singleton.mp hnew
          intro r hr
          have hr := mem_of_mem_filter hr
          exact ⟨h.own r hr, hphase.1 r hr⟩
    | startReconcile =>
      cases phase with
      | catchingUp => cases hnext
      | behind =>
        cases hnext
        have htasks : s.tasks = [] := hphase
        refine ⟨h.file, h.own, .reconcileRepair s.rows s.rows, ?_, Subset.refl _, Subset.refl _,
          h.own⟩
        show s.tasks ++ _ = _
        rw [htasks]
        rfl
      | current =>
        cases hnext
        refine ⟨h.file, h.own, hphase.1, fun task hmem => ?_⟩
        rcases mem_append.mp hmem with hold | hnew
        · exact hphase.2 task hold
        · obtain rfl := mem_singleton.mp hnew
          exact ⟨fun r hr => ⟨h.own r hr, hphase.1 r hr⟩, fun r hr => ⟨h.own r hr, hphase.1 r hr⟩⟩
    | proceed i repairs =>
      cases phase with
      | behind =>
        cases hnext
        have htasks : s.tasks = [] := hphase
        rw [step_proceed_none (by rw [htasks]; rfl)]
        exact h
      | catchingUp =>
        cases hnext
        exact h.proceed_catchingUp
      | current =>
        cases hnext
        exact h.proceed_current
    | stop i =>
      cases phase with
      | behind | catchingUp | current =>
        cases hnext
        exact h.stop

/-- **A run in order.** -/
theorem OrderInv.run : ∀ {es : List PlaneEvent} {s : Planes} {phase next : Phase},
    OrderInv key s phase → phaseAfter key env s phase es = some next →
      OrderInv key (s.run env es) next
  | [], _, _, _, h, hnext => by
    cases hnext
    exact h
  | e :: es, s, phase, next, h, hnext => by
    obtain ⟨phase', hone, hrest⟩ := Option.bind_eq_some_iff.mp hnext
    show OrderInv key ((s.step env e).run env es) next
    exact OrderInv.run (h.step hone) hrest

/-- **The file gives the usage the data plane has recorded last**, after every run of both programs
from a start where nothing is recorded of the cartridge, if they keep to the order, and if the
cartridges with this file have no other and are not retired. -/
theorem usage_kept (env : SharedEnv) (key : List Char) {s : Planes} (hnew : s.recorded key = none)
    (htasks : s.tasks = []) (hown : ∀ r ∈ s.rows, OwnRow key r) (es : List PlaneEvent)
    (horder : (phaseAfter key env s .current es).isSome = true) :
    KeepsUsage key (s.run env es) := by
  obtain ⟨next, hnext⟩ := Option.isSome_iff_exists.mp horder
  have hstart : OrderInv key s .current := by
    refine ⟨?_, hown, ?_, ?_⟩
    · intro v hv
      rw [hnew] at hv
      cases hv
    · intro r _ _ v hv
      rw [hnew] at hv
      cases hv
    · rw [htasks]
      exact fun _ hmem => by cases hmem
  exact fun v hv => ((hstart.run hnext).file v hv).2

/-! ## §8. An older usage comes back. -/

/-- One cartridge in a library, of which nothing is recorded yet. -/
def libraryStart : Planes where
  shared := ⟨fun _ => none, fun _ => none⟩
  rows := [⟨pooledCartridge, "lib".toList, false⟩]
  tasks := []
  recorded := fun _ => none

/-- The data plane records this usage of the cartridge. -/
def recordUsage (eodPosition : Nat) : PlaneEvent :=
  .usage { pooledDrive with eodPosition := eodPosition } true none

/-- A reconciliation of the cartridge, and a slot synchronisation of its library, to their end. -/
def reconcileAll : List PlaneEvent := .startReconcile :: replicate 5 (.proceed 0 false)

@[inherit_doc reconcileAll]
def syncSlots : List PlaneEvent := .startSync "lib".toList :: replicate 6 (.proceed 0 false)

/-- The data plane records twenty-five bytes after the last slot synchronisation, and a
reconciliation copies them to the database before the next one. -/
def syncAfterReconcile : List PlaneEvent :=
  [recordUsage 10] ++ reconcileAll ++ syncSlots ++ [recordUsage 25] ++ reconcileAll ++ syncSlots

theorem usage_kept_synced :
    KeepsUsage "tape01l9".toList (libraryStart.run pooledEnv syncAfterReconcile) ∧
      (libraryStart.run pooledEnv syncAfterReconcile).recorded "tape01l9".toList = some 25 ∧
      (libraryStart.run pooledEnv syncAfterReconcile).tasks = [] := by
  refine ⟨usage_kept pooledEnv _ rfl rfl ?_ _ (by decide +kernel), by decide +kernel,
    by decide +kernel⟩
  intro r hr
  obtain rfl := mem_singleton.mp hr
  exact ⟨fun _ => by decide +kernel, fun _ => rfl⟩

/-- The data plane records ten bytes, a reconciliation copies them to the database, the data plane
records twenty-five, and a slot synchronisation runs to its end. -/
def syncAfterUsage : List PlaneEvent :=
  [recordUsage 10] ++ reconcileAll ++ [recordUsage 25] ++ syncSlots

/-- **A slot synchronisation writes an older usage**: the database still holds what was reconciled
before. -/
theorem sync_writes_older_usage : (libraryStart.run pooledEnv syncAfterUsage).tasks = [] ∧
      (libraryStart.run pooledEnv syncAfterUsage).recorded "tape01l9".toList = some 25 ∧
      ((libraryStart.run pooledEnv syncAfterUsage).shared.files "tape01l9".toList).bind usedEntry =
        some "10".toList := by
  decide +kernel

end Holo.Shared
