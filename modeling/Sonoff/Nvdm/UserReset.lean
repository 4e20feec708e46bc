import Sonoff.Nvdm.Defaults

/-! # The reset of the user group, whole or cut short

A reset that fails has finished a front part of the user table. Of the next item
it may have deleted the variable; every other variable is as it was, and the next
initialisation fills the gap.
-/
namespace Sonoff.Nvdm.Defaults
open Fallible

variable {tables : ItemTables} {flash : EasyFlash} {item item' : SnfNvdmItem}
  {items : List SnfNvdmItem} {k : CString} {s t u : EfState}

structure Reset (flash : EasyFlash) (items : List SnfNvdmItem) (s t : EfState) : Prop where
  defaults : ∀ item ∈ items, ∃ k, item.flashKey flash = some k ∧ t.env k = some item.data
  others : ∀ k, (∀ item ∈ items, item.flashKey flash ≠ some k) → t.env k = s.env k

/-- The items in front have their defaults, the next one may be missing, and nothing else
has changed. -/
structure Interrupted (flash : EasyFlash) (done : List SnfNvdmItem) (next : SnfNvdmItem)
    (s t : EfState) : Prop where
  defaults : ∀ item ∈ done, ∃ k, item.flashKey flash = some k ∧ t.env k = some item.data
  gap : ∀ k, next.flashKey flash = some k → t.env k = s.env k ∨ t.env k = none
  others : ∀ k, (∀ item ∈ done, item.flashKey flash ≠ some k) → next.flashKey flash ≠ some k →
    t.env k = s.env k

def Unshared (flash : EasyFlash) (items : List SnfNvdmItem) : Prop :=
  items.Pairwise fun a b => ∀ k, a.flashKey flash = some k → b.flashKey flash ≠ some k

theorem ItemTables.unshared_user : Unshared flash tables.user.items := by
  have hnodup : tables.user.items.Nodup := tables.user.distinct.of_map _
  refine (hnodup.pairwise_of_forall_ne ?_)
  intro a ha b hb hne k hka hkb
  exact hne (ItemTables.item_eq (ItemTables.user_subset ha) (ItemTables.user_subset hb) hka hkb)

/-- One item: its default, or what a failure leaves. -/
theorem resetItem_triple (item : SnfNvdmItem) :
    Triple (fun u => u = s)
      (do snfNvdmPortDelete flash item.group item.key; nvdmWriteDefaultItem flash item)
      (fun _ u => ∃ k, item.flashKey flash = some k ∧ u.env k = some item.data ∧ ∀ k', k' ≠ k →
        u.env k' = s.env k')
      (fun _ u => Interrupted flash [] item s u) := by
  refine Triple.bind
    ((snfNvdmPortDelete_triple item.group item.key).consequence (fun _ h => h) (fun _ _ h => h) ?_)
    fun _ => ?_
  · intro _ u hu
    exact ⟨nofun, fun k _ => Or.inl (congrFun hu k), fun k _ _ => congrFun hu k⟩
  · rintro v ⟨k,hkey,hk,hothers⟩
    have hwrite := @nvdmWriteDefaultItem_triple flash v item v rfl
    split at hwrite
    · obtain ⟨k',hkey',rfl⟩ := hwrite
      obtain rfl := Option.some.inj (hkey.symm.trans hkey')
      exact ⟨k, hkey, EfState.set_self _ _ _, fun k' hk' =>
        (EfState.set_of_ne _ _ hk').trans (hothers k' hk')⟩
    · refine ⟨nofun, fun k' hkey' => ?_, fun k' _ hkey' => ?_⟩
      · obtain rfl := Option.some.inj (hkey.symm.trans hkey')
        rw [hwrite]
        exact hk.symm
      · rw [hwrite]
        exact hothers k' fun he => hkey' (he ▸ hkey)

/-- The whole loop, by the items that it has done. -/
theorem cleanItems_triple (hun : Unshared flash items) :
    Triple (fun u => u = s) (cleanItems flash items) (fun _ u => Reset flash items s u)
      (fun _ u => ∃ done next rest, items = done ++ next :: rest ∧
        Interrupted flash done next s u) := by
  induction items generalizing s with
  | nil =>
    rintro u rfl
    exact ⟨nofun, fun _ _ => rfl⟩
  | cons item rest ih =>
    obtain ⟨hitem,hrest⟩ := List.pairwise_cons.mp hun
    have hsplit : cleanItems flash (item :: rest) =
        (do snfNvdmPortDelete flash item.group item.key; nvdmWriteDefaultItem flash item) >>=
          fun _ => cleanItems flash rest := by
      rw [bind_assoc]
      rfl
    rw [hsplit]
    refine Triple.bind ((resetItem_triple item).consequence (fun _ h => h) (fun _ _ h => h) ?_)
      fun _ => ?_
    · intro _ u hu
      exact ⟨[], item, rest, rfl, hu⟩
    · rintro v ⟨k,hkey,hk,hothers⟩
      -- the rest of the loop starts behind this item and keeps its variable
      have hfresh : ∀ item' ∈ rest, item'.flashKey flash ≠ some k := fun item' hitem' =>
        hitem item' hitem' k hkey
      have hloop := ih hrest v rfl
      split at hloop
      · refine ⟨fun item' hitem' => ?_, fun k' hk' => ?_⟩
        · rcases List.mem_cons.mp hitem' with rfl | hitem'
          · exact ⟨k, hkey, (hloop.others k hfresh).trans hk⟩
          · exact hloop.defaults item' hitem'
        · rw [hloop.others k' fun item' hitem' => hk' item' (List.mem_cons_of_mem _ hitem')]
          exact hothers k' fun he => hk' item List.mem_cons_self (he ▸ hkey)
      · obtain ⟨done,next,rest',rfl,hint⟩ := hloop
        refine ⟨item :: done, next, rest', rfl, ?_, fun k' hkey' => ?_, fun k' hdone hnext => ?_⟩
        · intro item' hitem'
          rcases List.mem_cons.mp hitem' with rfl | hitem'
          · refine ⟨k, hkey, ?_⟩
            rw [hint.others k (fun item' hitem' => hfresh item' (List.mem_append_left _ hitem'))
              (hfresh next (List.mem_append_right _ List.mem_cons_self)), hk]
          · exact hint.defaults item' hitem'
        · have hne : k' ≠ k := fun he =>
            hfresh next (List.mem_append_right _ List.mem_cons_self) (he ▸ hkey')
          rw [← hothers k' hne]
          exact hint.gap k' hkey'
        · rw [hint.others k' (fun item' hitem' => hdone item' (List.mem_cons_of_mem _ hitem'))
            hnext]
          exact hothers k' fun he => hdone item List.mem_cons_self (he ▸ hkey)

theorem snfNvdmCleanUserGroup_triple :
    Triple (fun u => u = s) (snfNvdmCleanUserGroup tables flash) (fun _ u =>
      Reset flash tables.user.items s u)
      (fun _ u => ∃ done next rest, tables.user.items = done ++ next :: rest ∧
        Interrupted flash done next s u) := by
  unfold snfNvdmCleanUserGroup
  rw [nvdmFindItemTable_user]
  exact cleanItems_triple ItemTables.unshared_user

/-- A variable that no registered item has, or that only items of the other tables have. -/
theorem ItemTables.not_user (hitem : item ∈ tables.factory.items ++ tables.matter.items)
    (hkey : item.flashKey flash = some k) :
    ∀ item' ∈ tables.user.items, item'.flashKey flash ≠ some k := by
  intro item' hitem' hkey'
  have hmem : item ∈ tables.items := by
    show item ∈ tables.user.items ++ (tables.factory.items ++ (tables.matter.items ++ []))
    rw [List.append_nil]
    exact List.mem_append_right _ hitem
  have he := ItemTables.item_eq (ItemTables.user_subset hitem') hmem hkey' hkey
  have huser : item.group = nvdmUserGroup :=
    he ▸ (tables.user.grouped item' hitem').trans tables.userGroup
  rcases List.mem_append.mp hitem with hitem | hitem
  · have hne := huser.symm.trans ((tables.factory.grouped item hitem).trans tables.factoryGroup)
    exact absurd hne (by decide)
  · have hne := huser.symm.trans ((tables.matter.grouped item hitem).trans tables.matterGroup)
    exact absurd hne (by decide)

def registeredGroups : List CString := [nvdmUserGroup, nvdmFacGroup, nvdmMatterGroup]

/-- Initialisation adds what is missing and nothing else; the reset gives every user item its
default and touches nothing else; cut short, it leaves a front part done and at most one item
missing, which the next initialisation restores. -/
theorem nvdm_frames (tables : ItemTables) (flash : EasyFlash) (s t : EfState) :
    (snfNvdmInit tables flash s = .ok () t →
      Completed tables flash s t ∧ snfNvdmInit tables flash t = .ok () t) ∧
    (snfNvdmCleanUserGroup tables flash s = .ok () t →
      Reset flash tables.user.items s t ∧
      ∀ item ∈ tables.factory.items ++ tables.matter.items, ∀ k, item.flashKey flash = some k →
        t.env k = s.env k) ∧
    (snfNvdmCleanUserGroup tables flash s = .error () t →
      ∃ done next rest, tables.user.items = done ++ next :: rest ∧ Interrupted flash done next s t ∧
      (∀ item ∈ tables.factory.items ++ tables.matter.items, ∀ k, item.flashKey flash = some k →
        t.env k = s.env k) ∧
      ∀ u, snfNvdmInit tables flash t = .ok () u → Completed tables flash t u ∧
        (∀ item ∈ done, ∃ k, item.flashKey flash = some k ∧ u.env k = some item.data) ∧
        ∀ item ∈ tables.items, ∃ k, item.flashKey flash = some k ∧
          (u.env k = some item.data ∨ u.env k = some ((s.env k).getD item.data))) ∧
    ∀ group ∈ registeredGroups, ∀ group' ∈ registeredGroups, ∀ key key' outSize flashKey,
      nvdmPortMakeKey group key outSize = some flashKey →
        nvdmPortMakeKey group' key' outSize = some flashKey →
      group = group' ∧ key = key' := by
  refine ⟨fun h => ⟨snfNvdmInit_completed h, snfNvdmInit_again h⟩, fun h => ?_, fun h => ?_, ?_⟩
  · have hreset := snfNvdmCleanUserGroup_triple.ok rfl h
    exact ⟨hreset, fun item hitem k hkey => hreset.others k (ItemTables.not_user hitem hkey)⟩
  · obtain ⟨done,next,rest,hsplit,hint⟩ := snfNvdmCleanUserGroup_triple.error rfl h
    refine ⟨done, next, rest, hsplit, hint, fun item hitem k hkey => ?_, fun u hu => ?_⟩
    · have hnot := ItemTables.not_user hitem hkey
      refine hint.others k (fun item' hitem' => hnot item' ?_) (hnot next ?_)
      · exact hsplit ▸ List.mem_append_left _ hitem'
      · exact hsplit ▸ List.mem_append_right _ List.mem_cons_self
    · have hcompleted := snfNvdmInit_completed hu
      have hdone : ∀ item ∈ done, item ∈ tables.items := fun item hitem =>
        ItemTables.user_subset (hsplit ▸ List.mem_append_left _ hitem)
      refine ⟨hcompleted, fun item hitem => ?_, fun item hitem => ?_⟩
      · obtain ⟨k,hkey,hk⟩ := hint.defaults item hitem
        obtain ⟨k',hkey',hk'⟩ := hcompleted.registered item (hdone item hitem)
        obtain rfl := Option.some.inj (hkey.symm.trans hkey')
        rw [hk] at hk'
        exact ⟨k, hkey, hk'⟩
      · obtain ⟨k,hkey,hk⟩ := hcompleted.registered item hitem
        refine ⟨k, hkey, ?_⟩
        by_cases hgap : next.flashKey flash = some k
        · rcases hint.gap k hgap with ht | ht
          · exact Or.inr (ht ▸ hk)
          · exact Or.inl (by rw [hk, ht]; rfl)
        · by_cases hfront : ∃ item' ∈ done, item'.flashKey flash = some k
          · obtain ⟨item',hitem',hkey'⟩ := hfront
            obtain ⟨k',hkey₂,hk'⟩ := hint.defaults item' hitem'
            obtain rfl := Option.some.inj (hkey'.symm.trans hkey₂)
            obtain rfl := ItemTables.item_eq (hdone item' hitem') hitem hkey' hkey
            exact Or.inl (by rw [hk, hk']; rfl)
          · have hsame := hint.others k (fun item' hitem' he => hfront ⟨item', hitem', he⟩) hgap
            exact Or.inr (hsame ▸ hk)
  · have hundotted : ∀ group ∈ registeredGroups, (46 : UInt8) ∉ group.chars := by decide
    intro group hg group' hg' key key' outSize flashKey h h'
    exact nvdmPortMakeKey_injective (hundotted group hg) (hundotted group' hg') h h'

def failsAt (n : ℕ) : EasyFlash := ⟨32, fun call => if call = n then .writeErr else .noErr⟩

def succeeds (m : EfM Unit) (s : EfState) : Option EfState :=
  match m s with
  | .ok _ t => some t
  | .error _ _ => none

def fails (m : EfM Unit) (s : EfState) : Option EfState :=
  match m s with
  | .ok _ _ => none
  | .error _ t => some t

theorem ok_of_succeeds {m : EfM Unit} (h : succeeds m s = some t) : m s = .ok () t := by
  unfold succeeds at h
  split at h
  · rw [‹m s = _›, Option.some.inj h]
  · cases h

theorem error_of_fails {m : EfM Unit} (h : fails m s = some t) : m s = .error () t := by
  unfold fails at h
  split at h
  · cases h
  · rw [‹m s = _›, Option.some.inj h]

/-- On an empty store the plug writes 24 defaults; its reset then loses the Wi-Fi password
to a failing write, and the next initialisation brings it back. -/
theorem nvdm_frames_plug : ∃ s t u,
    snfNvdmInit onoffPlug (failsAt 27) ⟨fun _ => none, 0⟩ = .ok () s ∧ s.calls = 24 ∧
    Completed onoffPlug (failsAt 27) ⟨fun _ => none, 0⟩ s ∧
    snfNvdmCleanUserGroup onoffPlug (failsAt 27) s = .error () t ∧ t.calls = 28 ∧
    (∃ done next rest, onoffPlug.user.items = done ++ next :: rest ∧
      Interrupted (failsAt 27) done next s t) ∧
    snfNvdmInit onoffPlug (failsAt 27) t = .ok () u ∧ u.calls = 29 := by
  have hrun : ((succeeds (snfNvdmInit onoffPlug (failsAt 27)) ⟨fun _ => none, 0⟩).any fun s =>
    s.calls = 24 ∧ (fails (snfNvdmCleanUserGroup onoffPlug (failsAt 27)) s).any fun t =>
    t.calls = 28 ∧ (succeeds (snfNvdmInit onoffPlug (failsAt 27)) t).any fun u => u.calls = 29) =
    true := by
    decide +kernel
  obtain ⟨s,hs,hrun⟩ := (Option.any_eq_true _ _).mp hrun
  obtain ⟨hcalls,hrun⟩ := of_decide_eq_true hrun
  obtain ⟨t,ht,hrun⟩ := (Option.any_eq_true _ _).mp hrun
  obtain ⟨htcalls,hrun⟩ := of_decide_eq_true hrun
  obtain ⟨u,hu,hucalls⟩ := (Option.any_eq_true _ _).mp hrun
  have hs := ok_of_succeeds hs
  have ht := error_of_fails ht
  obtain ⟨done,next,rest,hsplit,hint,-⟩ := (nvdm_frames onoffPlug (failsAt 27) s t).2.2.1 ht
  exact ⟨s, t, u, hs, hcalls, ((nvdm_frames onoffPlug (failsAt 27) _ s).1 hs).1, ht, htcalls,
    ⟨done, next, rest, hsplit, hint⟩, ok_of_succeeds hu, of_decide_eq_true hucalls⟩

end Sonoff.Nvdm.Defaults
