import Mathlib.Data.List.Nodup
import Sonoff.Nvdm.Port

/-! # Defaults and the reset of the user group

`sonoff_nvdm.c` registers its items in three tables. Initialisation writes the
default of every missing one; the reset deletes every user item and writes its
default.
-/
namespace Sonoff.Nvdm.Defaults
open Fallible

def nvdmUserGroup : CString := .ascii "user"
def nvdmFacGroup : CString := .ascii "factory"
def nvdmMatterGroup : CString := .ascii "matter"

structure SnfNvdmItem where
  group : CString
  key : CString
  data : List UInt8
  -- `data_len` is a `size_t`
  sized : data.length < 4294967296

def SnfNvdmItem.dataLen (item : SnfNvdmItem) : ℤ :=
  if item.data.length < 2147483648 then item.data.length else (item.data.length : ℤ) - 4294967296

structure SnfNvdmItemTable where
  group : CString
  items : List SnfNvdmItem
  grouped : ∀ item ∈ items, item.group = group
  distinct : (items.map SnfNvdmItem.key).Nodup

structure ItemTables where
  user : SnfNvdmItemTable
  factory : SnfNvdmItemTable
  matter : SnfNvdmItemTable
  userGroup : user.group = nvdmUserGroup
  factoryGroup : factory.group = nvdmFacGroup
  matterGroup : matter.group = nvdmMatterGroup

/-- `NVDM_USER_ITEM` and its siblings: the default with its terminator. -/
def nvdmItem (group : CString) (x y : String) (h : (CString.ascii y).bytes.length < 4294967296) :
    SnfNvdmItem :=
  ⟨group, .ascii x, (CString.ascii y).bytes, h⟩

def onoffPlug : ItemTables where
  user := {
    group := nvdmUserGroup
    items := [
      nvdmItem nvdmUserGroup "wifi.ssid" "sonoff" (by decide),
      nvdmItem nvdmUserGroup "wifi.password" "12345678" (by decide),
      nvdmItem nvdmUserGroup "plug.onoff" "0" (by decide)]
    grouped := by decide
    distinct := by decide +kernel }
  factory := {
    group := nvdmFacGroup
    items := [
      nvdmItem nvdmFacGroup "serial.number" "" (by decide),
      nvdmItem nvdmFacGroup "active.code" "" (by decide),
      nvdmItem nvdmFacGroup "device.id" "" (by decide),
      nvdmItem nvdmFacGroup "factory.apikey" "" (by decide),
      nvdmItem nvdmFacGroup "base.mac" "00:00:00:00:00:00" (by decide),
      nvdmItem nvdmFacGroup "device.model" "" (by decide),
      nvdmItem nvdmFacGroup "device.uiid" "" (by decide)]
    grouped := by decide
    distinct := by decide +kernel }
  matter := {
    group := nvdmMatterGroup
    items := [
      nvdmItem nvdmMatterGroup "discriminator" "0" (by decide),
      nvdmItem nvdmMatterGroup "iteration.count" "0" (by decide),
      nvdmItem nvdmMatterGroup "salt" "" (by decide),
      nvdmItem nvdmMatterGroup "verifier" "" (by decide),
      nvdmItem nvdmMatterGroup "vendor.id" "4742" (by decide),
      nvdmItem nvdmMatterGroup "vendor.name" "Sonoff" (by decide),
      nvdmItem nvdmMatterGroup "product.id" "0" (by decide),
      nvdmItem nvdmMatterGroup "product.name" "" (by decide),
      nvdmItem nvdmMatterGroup "rd.id.uid" "" (by decide),
      nvdmItem nvdmMatterGroup "passcode" "0" (by decide),
      nvdmItem nvdmMatterGroup "CD" "" (by decide),
      nvdmItem nvdmMatterGroup "DAC.CERT" "" (by decide),
      nvdmItem nvdmMatterGroup "DAC.KEY" "" (by decide),
      nvdmItem nvdmMatterGroup "PAI.CERT" "" (by decide)]
    grouped := by decide
    distinct := by decide +kernel }
  userGroup := rfl
  factoryGroup := rfl
  matterGroup := rfl

variable (tables : ItemTables) (flash : EasyFlash)

def ItemTables.array : List SnfNvdmItemTable := [tables.user, tables.factory, tables.matter]

def ItemTables.items : List SnfNvdmItem := tables.array.flatMap SnfNvdmItemTable.items

def nvdmFindItemTable (group : CString) :
    Option SnfNvdmItemTable := tables.array.find? (·.group = group)

def snfNvdmWriteStr (group key : CString) (value : List UInt8) (len : ℤ) : EfM Unit := do
  require (0 < len) ()
  snfNvdmPortWriteStr flash group key value len

def nvdmWriteDefaultItem (item : SnfNvdmItem) : EfM Unit :=
  snfNvdmWriteStr flash item.group item.key item.data item.dataLen

def nvdmCheckItem (item : SnfNvdmItem) : EfM Unit := do
  let exist ← snfNvdmPortExistStatus flash item.group item.key
  if exist then pure () else nvdmWriteDefaultItem flash item

def nvdmCheckItems : List SnfNvdmItem → EfM Unit
  | [] => pure ()
  | item :: rest => do
    nvdmCheckItem flash item
    nvdmCheckItems rest

def nvdmCheckItemTable (table : SnfNvdmItemTable) : EfM Unit := nvdmCheckItems flash table.items

def nvdmCheckTables : List SnfNvdmItemTable → EfM Unit
  | [] => pure ()
  | table :: rest => do
    nvdmCheckItemTable flash table
    nvdmCheckTables rest

def nvdmCheckDefaultValue : EfM Unit := nvdmCheckTables flash tables.array

def snfNvdmInit : EfM Unit := nvdmCheckDefaultValue tables flash

def cleanItems : List SnfNvdmItem → EfM Unit
  | [] => pure ()
  | item :: rest => do
    snfNvdmPortDelete flash item.group item.key
    nvdmWriteDefaultItem flash item
    cleanItems rest

def snfNvdmCleanUserGroup : EfM Unit := do
  let table ← ofOption (nvdmFindItemTable tables nvdmUserGroup) ()
  cleanItems flash table.items

/-- The variable of an item, if its name fits. -/
def SnfNvdmItem.flashKey (item : SnfNvdmItem) : Option CString :=
  nvdmPortMakeKey item.group item.key (flash.efEnvNameMax + 1)

variable {tables flash} {item item' : SnfNvdmItem} {items : List SnfNvdmItem}
  {table table' : SnfNvdmItemTable} {k : CString} {s t u : EfState}

theorem nvdmFindItemTable_user : nvdmFindItemTable tables nvdmUserGroup = some tables.user :=
  List.find?_cons_of_pos (decide_eq_true tables.userGroup)

theorem ItemTables.group_cases (h : table ∈ tables.array) :
    table.group = nvdmUserGroup ∨ table.group = nvdmFacGroup ∨ table.group = nvdmMatterGroup := by
  rcases List.mem_cons.mp h with rfl | h
  · exact Or.inl tables.userGroup
  · rcases List.mem_cons.mp h with rfl | h
    · exact Or.inr (Or.inl tables.factoryGroup)
    · rw [List.mem_singleton] at h
      exact Or.inr (Or.inr (h ▸ tables.matterGroup))

theorem ItemTables.undotted (h : table ∈ tables.array) : (46 : UInt8) ∉ table.group.chars := by
  rcases ItemTables.group_cases h with h | h | h <;> rw [h] <;> decide

theorem ItemTables.table_eq (h : table ∈ tables.array) (h' : table' ∈ tables.array)
    (hg : table.group = table'.group) : table = table' := by
  have hnodup : (tables.array.map SnfNvdmItemTable.group).Nodup := by
    show [tables.user.group, tables.factory.group, tables.matter.group].Nodup
    rw [tables.userGroup, tables.factoryGroup, tables.matterGroup]
    decide
  exact List.inj_on_of_nodup_map hnodup h h' hg

/-- Items with one variable are one item. -/
theorem ItemTables.item_eq (h : item ∈ tables.items) (h' : item' ∈ tables.items)
    (hk : item.flashKey flash = some k) (hk' : item'.flashKey flash = some k) : item = item' := by
  obtain ⟨table,htable,hitem⟩ := List.mem_flatMap.mp h
  obtain ⟨table',htable',hitem'⟩ := List.mem_flatMap.mp h'
  have hg := table.grouped item hitem
  have hg' := table'.grouped item' hitem'
  obtain ⟨hgroup,hkey⟩ :=
    nvdmPortMakeKey_injective (hg ▸ ItemTables.undotted htable) (hg' ▸ ItemTables.undotted htable')
    hk hk'
  obtain rfl := ItemTables.table_eq htable htable' (hg.symm.trans (hgroup.trans hg'))
  exact List.inj_on_of_nodup_map table.distinct hitem hitem' hkey

theorem ItemTables.user_subset (h : item ∈ tables.user.items) : item ∈ tables.items :=
  List.mem_flatMap.mpr ⟨_, List.mem_cons_self, h⟩

theorem SnfNvdmItem.take_dataLen (item : SnfNvdmItem) (h : 0 < item.dataLen) :
    item.data.take item.dataLen.toNat = item.data := by
  have hsized := item.sized
  unfold dataLen at h ⊢
  split at h
  · rw [if_pos ‹_›, Int.toNat_natCast, List.take_length]
  · omega

theorem nvdmWriteDefaultItem_triple (item : SnfNvdmItem) :
    Triple (fun u => u = s) (nvdmWriteDefaultItem flash item)
      (fun _ u => ∃ k, item.flashKey flash = some k ∧ u = s.counted.set k (some item.data))
      (fun _ u => u.env = s.env) := by
  refine Triple.bind (Q := fun _ u => u = s) (Triple.require (fun _ hu _ => hu) fun _ hu _ =>
    hu ▸ rfl) fun _ => ?_
  refine (snfNvdmPortWriteStr_triple item.group item.key item.data item.dataLen).consequence
    (fun _ h => h) ?_ (fun _ _ h => h)
  rintro _ u ⟨hlen,k,hk,hu⟩
  exact ⟨k, hk, by rw [hu, item.take_dataLen hlen]⟩

structure Filled (flash : EasyFlash) (items : List SnfNvdmItem) (s t : EfState) : Prop where
  keeps : ∀ k, s.env k ≠ none → t.env k = s.env k
  fills : ∀ k, s.env k = none →
    t.env k = none ∨ ∃ item ∈ items, item.flashKey flash = some k ∧ t.env k = some item.data
  registered : ∀ item ∈ items, ∃ k, item.flashKey flash = some k ∧ t.env k ≠ none

theorem Filled.nil : Filled flash [] s s := ⟨fun _ _ => rfl, fun _ h => Or.inl h, nofun⟩

theorem Filled.append {items' : List SnfNvdmItem} (h : Filled flash items s u)
    (h' : Filled flash items' u t) : Filled flash (items ++ items') s t where
  keeps k hk := by rw [h'.keeps k (by rwa [h.keeps k hk]), h.keeps k hk]
  fills k hk := by
    rcases h.fills k hk with hu | ⟨item,hitem,hkey,hu⟩
    · rcases h'.fills k hu with ht | ⟨item,hitem,hkey,ht⟩
      · exact Or.inl ht
      · exact Or.inr ⟨item, List.mem_append_right _ hitem, hkey, ht⟩
    · refine Or.inr ⟨item, List.mem_append_left _ hitem, hkey, ?_⟩
      rw [h'.keeps k (by rw [hu]; nofun), hu]
  registered item hitem := by
    rcases List.mem_append.mp hitem with hitem | hitem
    · obtain ⟨k,hkey,hk⟩ := h.registered item hitem
      exact ⟨k, hkey, by rwa [h'.keeps k hk]⟩
    · exact h'.registered item hitem

theorem snfNvdmPortExistStatus_eq (item : SnfNvdmItem) (s : EfState) :
    snfNvdmPortExistStatus flash item.group item.key s =
      .ok ((item.flashKey flash).any fun k => (s.env k).isSome) s := by
  unfold snfNvdmPortExistStatus SnfNvdmItem.flashKey
  cases nvdmPortMakeKey item.group item.key (flash.efEnvNameMax + 1) <;> rfl

/-- One item: it is there, or its default is written. -/
theorem nvdmCheckItem_filled (h : nvdmCheckItem flash item s = .ok () t) :
    Filled flash [item] s t := by
  obtain ⟨exist,_,he,h⟩ := bind_eq_ok.mp h
  rw [snfNvdmPortExistStatus_eq] at he
  cases he
  split at h
  case isTrue hexist =>
    obtain ⟨-,rfl⟩ := pure_eq_ok.mp h
    obtain ⟨k,hkey,hk⟩ := (Option.any_eq_true _ _).mp hexist
    refine ⟨fun _ _ => rfl, fun _ hk => Or.inl hk, fun item' hitem => ?_⟩
    rw [List.mem_singleton.mp hitem]
    exact ⟨k, hkey, Option.isSome_iff_ne_none.mp hk⟩
  case isFalse hmissing =>
    obtain ⟨k,hkey,rfl⟩ := (nvdmWriteDefaultItem_triple item).ok rfl h
    have hnone : s.env k = none := by
      rw [hkey] at hmissing
      exact Option.not_isSome_iff_eq_none.mp hmissing
    refine ⟨fun k' hk' => ?_, fun k' hk' => ?_, fun item' hitem => ?_⟩
    · exact EfState.set_of_ne _ _ fun he => hk' (he ▸ hnone)
    · by_cases he : k' = k
      · subst he
        exact Or.inr ⟨item, List.mem_singleton_self _, hkey, EfState.set_self _ _ _⟩
      · exact Or.inl ((EfState.set_of_ne _ _ he).trans hk')
    · rw [List.mem_singleton.mp hitem]
      refine ⟨k, hkey, ?_⟩
      rw [EfState.set_self]
      nofun

theorem nvdmCheckItems_filled (h : nvdmCheckItems flash items s = .ok () t) :
    Filled flash items s t := by
  induction items generalizing s with
  | nil =>
    obtain ⟨-,rfl⟩ := pure_eq_ok.mp h
    exact .nil
  | cons item rest ih =>
    obtain ⟨_,u,hitem,hrest⟩ := bind_eq_ok.mp h
    exact (nvdmCheckItem_filled hitem).append (ih hrest)

theorem nvdmCheckTables_filled {array : List SnfNvdmItemTable}
    (h : nvdmCheckTables flash array s = .ok () t) :
    Filled flash (array.flatMap SnfNvdmItemTable.items) s t := by
  induction array generalizing s with
  | nil =>
    obtain ⟨-,rfl⟩ := pure_eq_ok.mp h
    exact .nil
  | cons table rest ih =>
    obtain ⟨_,u,htable,hrest⟩ := bind_eq_ok.mp h
    exact (nvdmCheckItems_filled htable).append (ih hrest)

/-- A check that finds every item makes no call that could change the flash. -/
theorem nvdmCheckItems_registered
    (h : ∀ item ∈ items, ∃ k, item.flashKey flash = some k ∧ s.env k ≠ none) :
    nvdmCheckItems flash items s = .ok () s := by
  induction items with
  | nil => rfl
  | cons item rest ih =>
    obtain ⟨k,hkey,hk⟩ := h item List.mem_cons_self
    have hexist : ((item.flashKey flash).any fun k => (s.env k).isSome) = true := by
      rw [hkey]
      exact Option.isSome_iff_ne_none.mpr hk
    have hitem : nvdmCheckItem flash item s = .ok () s := by
      unfold nvdmCheckItem
      rw [bind_ok (snfNvdmPortExistStatus_eq item s), if_pos hexist]
      rfl
    unfold nvdmCheckItems
    rw [bind_ok hitem]
    exact ih fun item' hitem => h item' (List.mem_cons_of_mem _ hitem)

theorem nvdmCheckTables_registered {array : List SnfNvdmItemTable}
    (h : ∀ item ∈ array.flatMap SnfNvdmItemTable.items, ∃ k, item.flashKey flash = some k ∧
      s.env k ≠ none) :
    nvdmCheckTables flash array s = .ok () s := by
  induction array with
  | nil => rfl
  | cons table rest ih =>
    have htable : nvdmCheckItemTable flash table s = .ok () s :=
      nvdmCheckItems_registered fun item hitem => h item (List.mem_append_left _ hitem)
    unfold nvdmCheckTables
    rw [bind_ok htable]
    exact ih fun item hitem => h item (List.mem_append_right _ hitem)

/-- Every registered item is there, with its old value or its default; no other variable
has changed. -/
structure Completed (tables : ItemTables) (flash : EasyFlash) (s t : EfState) : Prop where
  registered : ∀ item ∈ tables.items, ∃ k, item.flashKey flash = some k ∧
    t.env k = some ((s.env k).getD item.data)
  others : ∀ k, (∀ item ∈ tables.items, item.flashKey flash ≠ some k) → t.env k = s.env k

theorem Filled.completed (h : Filled flash tables.items s t) : Completed tables flash s t where
  registered item hitem := by
    obtain ⟨k,hkey,hk⟩ := h.registered item hitem
    refine ⟨k, hkey, ?_⟩
    cases hs : s.env k with
    | some value =>
      rw [h.keeps k (by rw [hs]; nofun), hs]
      rfl
    | none =>
      obtain ⟨item',hitem',hkey',ht⟩ := (h.fills k hs).resolve_left hk
      rw [ht, ItemTables.item_eq hitem' hitem hkey' hkey]
      rfl
  others k hk := by
    by_cases hs : s.env k = none
    · rcases h.fills k hs with ht | ⟨item,hitem,hkey,-⟩
      · rw [ht, hs]
      · exact absurd hkey (hk item hitem)
    · exact h.keeps k hs

theorem snfNvdmInit_completed (h : snfNvdmInit tables flash s = .ok () t) :
    Completed tables flash s t :=
  (nvdmCheckTables_filled h).completed

/-- A second initialisation writes nothing. -/
theorem snfNvdmInit_again (h : snfNvdmInit tables flash s = .ok () t) :
    snfNvdmInit tables flash t = .ok () t :=
  nvdmCheckTables_registered (nvdmCheckTables_filled h).registered

end Sonoff.Nvdm.Defaults
