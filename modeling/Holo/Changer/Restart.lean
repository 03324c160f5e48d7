/-
Holo.Changer.Restart — the inventory of a changer that was just started.

It has nothing in its drives, so the first sync only takes cartridges to the drives whose files
name them, from wherever the other files put them.

Main results:
* `restart_invariant`: what every mount of a cartridge keeps holds after the sync;
* `restart_nodup`: labels that are on one line of the slots' and ports' files are shown once;
* `restart_twice`: a label in both files that no drive's file names is shown twice.
-/
import Holo.Changer.Sync

namespace Holo.Changer

open Lib List

variable {Label : Type} [DecidableEq Label] {cfg : ChangerConfig} {files : SharedFiles Label}
  {inv : Inventory Label} {label l : Label} {a : Nat} {slots ports : List (Option Label)}

/-! ## §1. A label removed. -/

section

omit [DecidableEq Label]

theorem labels_perm_ports {r : Row Label Bool} (h : inv.ports.labels.Perm (l :: r.labels)) :
    inv.labels.Perm (l :: { inv with ports := r }.labels) := by
  refine ((h.append_left _).append_right _).trans ?_
  exact Perm.append_right _ perm_middle

theorem labels_perm_of_find {β : Type} {r : Row Label β} {c : Cell Label β} {t : β}
    (hc : c ∈ r.cells) (hl : c.label = some l) :
    r.labels.Perm (l :: (r.put c.addr none t).labels) := by
  obtain ⟨rest, hlabels, hput⟩ := Row.labels_split (Row.find_of_mem hc)
  rw [hl] at hlabels
  exact hlabels.trans ((hput none t).symm.cons l)

end

/-- **A label is removed**, or it is nowhere but in the drive it is for. -/
theorem remove_cases (inv : Inventory Label) (label : Label) (target : Nat) :
    inv.labels.Perm (label :: (removeChangerMediumLabel inv label target).2.labels) ∨
      (removeChangerMediumLabel inv label target).2 = inv ∧ label ∉ inv.slots.labels ∧
        label ∉ inv.ports.labels ∧ ∀ a, a ≠ target → inv.drives.labelAt a ≠ some label := by
  have habsent : ∀ {β : Type} {r : Row Label β},
      r.cells.find? (fun c => c.label = some label) = none → label ∉ r.labels := by
    intro β r hnone hmem
    obtain ⟨c, hc, hl⟩ := mem_filterMap.mp hmem
    exact find?_eq_none.mp hnone c hc (by simpa using hl)
  -- slots, ports, then the drives other than the target
  unfold removeChangerMediumLabel
  split
  · next c hc =>
    have hcl : c.label = some label := by simpa using find?_some hc
    exact .inl (((labels_perm_of_find (mem_of_find?_eq_some hc) hcl).append_right _).append_right _)
  next hs =>
  split
  · grind [labels_perm_ports, labels_perm_of_find]
  next hp =>
  split
  · next c hc =>
    have hcl : c.addr ≠ target ∧ c.label = some label := by simpa using find?_some hc
    refine .inl (Perm.trans (.append_left _ ?_) perm_middle)
    exact labels_perm_of_find (mem_of_find?_eq_some hc) hcl.2
  next hd =>
  refine .inr ⟨rfl, habsent hs, habsent hp, fun a hne hat => ?_⟩
  cases hf : inv.drives.find a with
  | none => simp [Row.labelAt, hf] at hat
  | some c =>
    have hcl : c.label = some label := by simpa [Row.labelAt, hf] using hat
    refine find?_eq_none.mp hd c (Cell.find_mem hf) ?_
    rw [Cell.find_addr hf]
    simp [hne, hcl]

theorem labelAt_remove (inv : Inventory Label) (label : Label) (target a : Nat) :
    (removeChangerMediumLabel inv label target).2.drives.labelAt a = inv.drives.labelAt a ∨
      (removeChangerMediumLabel inv label target).2.drives.labelAt a = none := by
  unfold removeChangerMediumLabel
  split
  · exact .inl rfl
  split
  · exact .inl rfl
  split
  · grind [Row.labelAt_put_self, Row.find_of_mem, Row.labelAt_put_of_ne]
  · exact .inl rfl

theorem mem_labels_remove {target : Nat} (hne : l ≠ label) :
    (l ∈ inv.slots.labels → l ∈ (removeChangerMediumLabel inv label target).2.slots.labels) ∧
      (l ∈ inv.ports.labels → l ∈ (removeChangerMediumLabel inv label target).2.ports.labels) := by
  have hkeep : ∀ {β : Type} {r : Row Label β} {c : Cell Label β} {t : β},
      r.cells.find? (fun c => c.label = some label) = some c → l ∈ r.labels →
      l ∈ (r.put c.addr none t).labels := by
    intro β r c t hc hmem
    obtain ⟨a, ha⟩ := Row.mem_labels_iff.mp hmem
    have hcl : c.label = some label := by simpa using find?_some hc
    have haddr : a ≠ c.addr := by grind [Row.labelAt_of_mem]
    exact Row.mem_labels_iff.mpr ⟨a, (Row.labelAt_put_of_ne haddr).trans ha⟩
  unfold removeChangerMediumLabel
  split
  · next c hc => exact ⟨hkeep hc, id⟩
  split
  · next c hc => exact ⟨id, hkeep hc⟩
  · split
    · exact ⟨id, id⟩
    · exact ⟨id, id⟩

/-! ## §2. A cartridge mounted in an empty drive. -/

theorem nodup_mountLabel (ha : a ∈ driveAddrs inv) (hempty : inv.drives.labelAt a = none)
    (hnd : inv.labels.Nodup) : (mountLabel inv a label).labels.Nodup := by
  set inv' := (removeChangerMediumLabel inv label a).2 with hinv'
  -- the label is taken out first, wherever it was
  have hgone : inv'.labels.Nodup ∧ label ∉ inv'.labels := by
    rcases remove_cases inv label a with hperm | ⟨heq, hs, hp, hd⟩
    · have hcons := nodup_cons.mp (hperm.nodup_iff.mp hnd)
      exact ⟨hcons.2, hcons.1⟩
    rw [hinv', heq]
    refine ⟨hnd, fun hmem => ?_⟩
    rcases mem_append.mp hmem with hmem | hmem
    · exact (mem_append.mp hmem).elim hs hp
    obtain ⟨b, hb⟩ := Row.mem_labels_iff.mp hmem
    by_cases hba : b = a
    · rw [hba, hempty] at hb
      cases hb
    · exact hd b hba hb
  have hempty' : inv'.drives.labelAt a = none :=
    (labelAt_remove inv label a a).elim (fun hsame => hsame.trans hempty) id
  have ha' : a ∈ driveAddrs inv' := by
    rw [hinv', driveAddrs_remove]
    exact ha
  cases hf : inv'.drives.find a with
  | none => exact absurd ha' (Cell.find_eq_none_iff.mp hf)
  | some c =>
    have hcl : c.label = none := by simpa [Row.labelAt, hf] using hempty'
    obtain ⟨rest, hlabels, hput⟩ := Row.labels_split hf
    rw [hcl] at hlabels
    have hperm : (mountLabel inv a label).labels.Perm (label :: inv'.labels) := by
      dsimp only [mountLabel]
      rw [Row.insert_eq_put (by rw [hf]; simp)]
      have hdrives := (hput (some label) (removeChangerMediumLabel inv label a).1).trans
        (hlabels.symm.cons label)
      exact (hdrives.append_left _).trans perm_middle
    exact hperm.nodup_iff.mpr (nodup_cons.mpr ⟨hgone.2, hgone.1⟩)

theorem labelAt_mountLabel {b : Nat} (hne : b ≠ a) (hempty : inv.drives.labelAt b = none) :
    (mountLabel inv a label).drives.labelAt b = none := by
  have hremoved : (removeChangerMediumLabel inv label a).2.drives.labelAt b = none := by
    grind [labelAt_remove]
  exact (Row.labelAt_insert_of_ne hne).trans hremoved

/-- A drive that is empty gets what its file names. -/
theorem syncDriveElement_of_empty (files : SharedFiles Label) {b : Nat × String}
    (h : inv.drives.labelAt b.1 = none) :
    syncDriveElement files inv b = inv ∨
      ∃ l, files.named b.2 = some l ∧ syncDriveElement files inv b = mountLabel inv b.1 l := by
  unfold syncDriveElement SharedFiles.named
  cases files.stateOf b.2 with
  | unreadable => exact .inl rfl
  | cartridge desired =>
    rw [h]
    cases desired with
    | none => exact .inl (if_pos rfl)
    | some l => exact .inr ⟨l, rfl, if_neg (by simp)⟩

/-! ## §3. The first sync. -/

variable {P : Inventory Label → Prop}

/-- **What mounting keeps** holds after the loop over empty drives. -/
theorem restart_invariant
    (hstep : ∀ inv, ∀ b ∈ cfg.bindings, ∀ l, files.named b.2 = some l → b.1 ∈ driveAddrs inv →
      inv.drives.labelAt b.1 = none → P inv → P (mountLabel inv b.1 l))
    {bs : List (Nat × String)} (hbs : ∀ b ∈ bs, b ∈ cfg.bindings)
    (hsorted : (bs.map Prod.fst).Nodup) (haddrs : ∀ b ∈ bs, b.1 ∈ driveAddrs inv)
    (hempty : ∀ b ∈ bs, inv.drives.labelAt b.1 = none) (hP : P inv) :
    P (bs.foldl (syncDriveElement files) inv) := by
  -- on the drives that are left, all of them still empty
  induction bs generalizing inv with
  | nil => exact hP
  | cons b bs ih =>
    rw [map_cons, nodup_cons] at hsorted
    have hb := hbs b mem_cons_self
    have hat := haddrs b mem_cons_self
    have hne : ∀ b' ∈ bs, b'.1 ≠ b.1 := by grind
    have hbs' : ∀ b' ∈ bs, b' ∈ cfg.bindings := fun b' hb' => hbs b' (mem_cons_of_mem b hb')
    rw [foldl_cons]
    rcases syncDriveElement_of_empty files (hempty b mem_cons_self) with
      heq | ⟨l, hl, heq⟩
    · grind
    rw [heq]
    refine ih hbs' hsorted.2 ?_ ?_ (hstep inv b hb l hl hat (hempty b mem_cons_self) hP)
    · intro b' hb'
      rw [driveAddrs_mountLabel hat]
      exact haddrs b' (mem_cons_of_mem b hb')
    · intro b' hb'
      exact labelAt_mountLabel (hne b' hb') (hempty b' (mem_cons_of_mem b hb'))

omit [DecidableEq Label] in
/-- Nothing is in the drives of a changer that was just started. -/
theorem labelAt_restarted (vtl : Nat → Label) (a : Nat) :
    (ensureChangerDriveTopology cfg (defaultInventory vtl)).drives.labelAt a = none := by
  have hdefault : ∀ a, (defaultInventory vtl).drives.labelAt a = none := by
    intro a
    unfold Row.labelAt Row.find Cell.find defaultInventory
    by_cases ha : 0x0100 = a
    · simp [ha]
    · simp [ha]
  by_contra hsome
  have haddr : a ∈ cfg.bindings.map Prod.fst := by
    have htop : driveAddrs (ensureChangerDriveTopology cfg (defaultInventory vtl)) =
        cfg.bindings.map Prod.fst := driveAddrs_topology
    rw [← htop]
    by_contra hnot
    exact hsome (by simp [Row.labelAt, Row.find, Cell.find_eq_none_iff.mpr hnot])
  obtain ⟨b, hb, rfl⟩ := mem_map.mp haddr
  rw [labelAt_topology hb] at hsome
  exact hsome (hdefault b.1)

section

variable (vtl : Nat → Label) (hslots : files.slots = some slots) (hports : files.ie = some ports)
include hslots hports

/-- The invariant rule for the first sync after a start. -/
theorem restart_induction
    (hstep : ∀ inv, ∀ b ∈ cfg.bindings, ∀ l, files.named b.2 = some l → b.1 ∈ driveAddrs inv →
      inv.drives.labelAt b.1 = none → P inv → P (mountLabel inv b.1 l))
    (hinit : P ⟨loadElements 0x0400 (fun _ => ()) slots, loadElements 0x0300 Option.isSome ports,
      (ensureChangerDriveTopology cfg (defaultInventory vtl)).drives⟩) :
    P (syncChanger cfg files (defaultInventory vtl)) := by
  have haddrs : (ensureChangerDriveTopology cfg (defaultInventory vtl)).drives.cells.map Cell.addr =
      cfg.bindings.map Prod.fst := driveAddrs_topology
  unfold syncChanger syncChangerMountFromShared
  rw [loaded_eq hslots hports]
  split
  · exact hinit
  refine restart_invariant hstep (fun b hb => hb) (cfg.sorted.imp fun h => ne_of_lt h) ?_
    (fun b _ => labelAt_restarted vtl b.1) hinit
  grind [driveAddrs]

/-- **Labels that are on one line** of the slots' and ports' files are shown once. -/
theorem restart_nodup (hnd : (slots.filterMap id ++ ports.filterMap id).Nodup) :
    (syncChanger cfg files (defaultInventory vtl)).labels.Nodup := by
  refine restart_induction (P := fun inv => inv.labels.Nodup) vtl hslots hports ?_ ?_
  · intro inv b _ l _ haddr hempty hlabels
    exact nodup_mountLabel haddr hempty hlabels
  have hdrives : (ensureChangerDriveTopology cfg (defaultInventory vtl)).drives.labels = [] := by
    rw [eq_nil_iff_forall_not_mem]
    intro l hl
    obtain ⟨a, ha⟩ := Row.mem_labels_iff.mp hl
    rw [labelAt_restarted] at ha
    cases ha
  unfold Inventory.labels
  rw [hdrives, append_nil]
  refine (labels_loadElements.append labels_loadElements).nodup_iff.mpr ?_
  exact hnd.sublist (((take_sublist _ _).filterMap id).append ((take_sublist _ _).filterMap id))

/-- **A label in both files** that no drive's file names is shown twice. -/
theorem restart_twice (hs : l ∈ (slots.take 65536).filterMap id)
    (hp : l ∈ (ports.take 65536).filterMap id)
    (hnamed : ∀ b ∈ cfg.bindings, files.named b.2 ≠ some l) :
    ¬ (syncChanger cfg files (defaultInventory vtl)).labels.Nodup := by
  have hboth : l ∈ (syncChanger cfg files (defaultInventory vtl)).slots.labels ∧
      l ∈ (syncChanger cfg files (defaultInventory vtl)).ports.labels := by
    refine restart_induction (P := fun inv => l ∈ inv.slots.labels ∧ l ∈ inv.ports.labels) vtl
      hslots hports ?_ ⟨labels_loadElements.mem_iff.mpr hs, labels_loadElements.mem_iff.mpr hp⟩
    intro inv b hb l' hl' _ _ hin
    have hne : l ≠ l' := by grind
    exact ⟨(mem_labels_remove hne).1 hin.1, (mem_labels_remove hne).2 hin.2⟩
  intro hnd
  have hparts := (nodup_append.mp (nodup_append.mp hnd).1).2.2
  exact hparts l hboth.1 l hboth.2 rfl

end

end Holo.Changer
