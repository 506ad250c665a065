import PulseFirmware.Footprint
import PulseFirmware.Lib.Run

/-! What the saves leave in flash: whether a save overwrites the setting it is for, and
whether it leaves the other settings alone. -/
namespace PulseFirmware
open PulseFirmware.CString PulseFirmware.Flash PulseFirmware.Run

/-- The bytes the boot section reads for a setting, in the variables it reads them into. -/
def Setting.bootBytes : Setting → Globals → List (List UInt8)
  | .token, g => [g.apiToken1.toList]
  | .link, g => [g.apiLink1.toList]
  | .ssid, g => [g.ssidNew.toList]
  | .key, g => [g.keyNew.toList]
  | .internet, g => [g.isInternet1.toList.take 8]
  | .config, g => [g.configString1.toList.take 48]
  | .ip, g => [word g.ipaddrValue,word g.gwValue,word g.maskValue]
  | .dhcp, g => [g.dhcpCheckWifi.toList.take 8,g.dhcpCheckEth.toList.take 8]

private theorem load_full {n : Nat} (dst : Bytes n) (flash : Content UInt8) (addr : Nat) :
    (memcpy dst (read flash addr n)).toList = read flash addr n :=
  memcpy_full dst _ (read_length flash addr n)

private theorem load_take {n m : Nat} (dst : Bytes n) (flash : Content UInt8) (addr : Nat) (fits : m ≤ n) :
    (memcpy dst (read flash addr m)).toList.take m = read flash addr m := by
  have copied := memcpy_take dst (read flash addr m) (by simpa using fits)
  rwa [read_length] at copied

private theorem load_word (flash : Content UInt8) (addr : Nat) : word (unword (read flash addr 4)) = read flash addr 4 :=
  word_unword _ _ _ _

/-- The boot section reads the stored bytes of every setting and changes none of them. -/
theorem bootReads_loaded (chip : Chip UInt8) (g : Globals) (flash : Content UInt8) :
    ∃ g', execOps chip bootReads g flash = .ok (g',flash) ∧ ∀ x : Setting, x.bootBytes g' = x.loaded flash := by
  refine ⟨_,rfl,fun x => ?_⟩
  cases x with
  | token => exact congrArg ([·]) (load_full _ flash 0xee200)
  | link => exact congrArg ([·]) (load_full _ flash 0xee100)
  | ssid => exact congrArg ([·]) (load_full _ flash 0xee500)
  | key => exact congrArg ([·]) (load_full _ flash 0xee600)
  | internet => exact congrArg ([·]) (load_take g.isInternet1 flash 0xee000 (by decide))
  | config => exact congrArg ([·]) (load_take g.configString1 flash 0xed000 (by decide))
  | ip =>
    change [word (unword (read flash 0xef000 4)),word (unword (read flash 0xef100 4)),
      word (unword (read flash 0xef200 4))] = [_,_,_]
    rw [load_word, load_word, load_word]
    rfl
  | dhcp =>
    change [(memcpy g.dhcpCheckWifi (read flash 0xf0000 8)).toList.take 8,
      (memcpy g.dhcpCheckEth (read flash 0xf1000 8)).toList.take 8] = [_,_]
    rw [load_take _ _ _ (by decide), load_take _ _ _ (by decide)]
    rfl

def Setting.erases : Setting → Bool
  | .token | .link | .ssid | .key => false
  | .internet | .config | .ip | .dhcp => true

/-- Every cell the boot section reads takes the new byte over the old one. -/
def Setting.Takes (x : Setting) (g : Globals) (flash : Content UInt8) : Prop :=
  ∀ part ∈ x.parts, ∀ i (inside : i < (part.src g).length), i < part.load →
    flash (part.addr + i) &&& (part.src g)[i] = (part.src g)[i]

private theorem plain_loaded_iff (g : Globals) (flash : Content UInt8) {x : Setting} {part : Part}
    (only : x.parts = [part])
    (written : flashOps nor g (saveOps x) flash = nor.program flash part.addr ((part.src g).take part.len)) :
    x.loaded (flashOps nor g (saveOps x) flash) = x.kept (x.saved g) ↔ x.Takes g flash := by
  have whole : (part.src g).take part.len = part.src g := List.take_of_length_le (Nat.le_of_eq (part.size g))
  have fits : part.load ≤ (part.src g).length := part.size g ▸ part.fits
  rw [written, whole]
  simp only [Setting.loaded, Setting.kept, Setting.saved, Setting.Takes, only, List.map_cons, List.map_nil,
    List.zipWith_cons_cons, List.zipWith_nil_left, List.cons.injEq, and_true, List.mem_singleton, forall_eq]
  exact read_program_take_iff nor flash part.addr part.load (part.src g) fits

private theorem erased_range (flash : Content UInt8) (page addr len : Nat)
    (inPage : addr / 4096 = page / 4096 ∧ (addr + (len - 1)) / 4096 = page / 4096) (a : Nat)
    (inside : Inside addr len a) : nor.erase flash page a = 0xff := by
  obtain ⟨low,high⟩ := inside
  have lower : addr / 4096 ≤ a / 4096 := Nat.div_le_div_right low
  have upper : a / 4096 ≤ (addr + (len - 1)) / 4096 := Nat.div_le_div_right (by omega)
  exact erase_inside nor flash page a (by change a / 4096 = page / 4096; omega)

private theorem program_keeps (flash : Content UInt8) (data : List UInt8) (addr addr' len : Nat)
    (apart : Flash.Disjoint addr len addr' data.length) (a : Nat) (inside : Inside addr len a) :
    nor.program flash addr' data a = flash a := by
  apply program_outside
  intro hit
  obtain ⟨low,high⟩ := inside
  obtain ⟨low',high'⟩ := hit
  rcases apart with before | after <;> omega

private theorem array_loaded (g : Globals) (flash : Content UInt8) {x : Setting} {part : Part} {page : Nat}
    (only : x.parts = [part])
    (written : flashOps nor g (saveOps x) flash =
      nor.program (nor.erase flash page) part.addr ((part.src g).take part.len))
    (inPage : part.addr / 4096 = page / 4096 ∧ (part.addr + (part.len - 1)) / 4096 = page / 4096) :
    x.loaded (flashOps nor g (saveOps x) flash) = x.kept (x.saved g) := by
  have whole : (part.src g).take part.len = part.src g := List.take_of_length_le (Nat.le_of_eq (part.size g))
  have fits : part.load ≤ (part.src g).length := part.size g ▸ part.fits
  rw [written, whole]
  simp only [Setting.loaded, Setting.kept, Setting.saved, only, List.map_cons, List.map_nil,
    List.zipWith_cons_cons, List.zipWith_nil_left]
  exact congrArg ([·]) (read_program_erased_take nor_fresh _ part.addr part.load _ fits fun a inside =>
    erased_range flash page part.addr part.len inPage a (part.size g ▸ inside))

private theorem ip_loaded (g : Globals) (flash : Content UInt8) :
    Setting.ip.loaded (flashOps nor g (saveOps .ip) flash) = Setting.ip.kept (Setting.ip.saved g) := by
  let erased := nor.erase flash 0xef000
  let first := nor.program erased 0xef000 (word g.ipaddr)
  let second := nor.program first 0xef100 (word g.gwaddr)
  let third := nor.program second 0xef200 (word g.netmask)
  have ip : read third 0xef000 4 = word g.ipaddr := by
    rw [read_program_disjoint nor second 0xef000 4 0xef200 _ (Or.inl (by simp)),
      read_program_disjoint nor first 0xef000 4 0xef100 _ (Or.inl (by simp))]
    exact read_program_erased nor_fresh erased 0xef000 (word g.ipaddr) 
      (erased_range flash 0xef000 0xef000 4 (by decide))
  have gw : read third 0xef100 4 = word g.gwaddr := by
    rw [read_program_disjoint nor second 0xef100 4 0xef200 _ (Or.inl (by simp))]
    refine read_program_erased nor_fresh first 0xef100 (word g.gwaddr) fun a inside => ?_
    exact (program_keeps erased _ 0xef100 0xef000 4 (Or.inr (by simp)) a inside).trans
      (erased_range flash 0xef000 0xef100 4 (by decide) a inside)
  have mask : read third 0xef200 4 = word g.netmask := by
    refine read_program_erased nor_fresh second 0xef200 (word g.netmask) fun a inside => ?_
    exact (program_keeps first _ 0xef200 0xef100 4 (Or.inr (by simp)) a inside).trans
      ((program_keeps erased _ 0xef200 0xef000 4 (Or.inr (by simp)) a inside).trans
        (erased_range flash 0xef000 0xef200 4 (by decide) a inside))
  change [read third 0xef000 4,read third 0xef100 4,read third 0xef200 4] = [_,_,_]
  rw [ip, gw, mask]
  rfl

private theorem dhcp_loaded (g : Globals) (flash : Content UInt8) :
    Setting.dhcp.loaded (flashOps nor g (saveOps .dhcp) flash) = Setting.dhcp.kept (Setting.dhcp.saved g) := by
  have size (flag : Bytes 50) : (flag.toList.take 8).length = 8 := by simp [flag.toList_length]
  let wifi := g.dhcpCheckWifi.toList.take 8
  let eth := g.dhcpCheckEth.toList.take 8
  let first := nor.program (nor.erase flash 0xf0000) 0xf0000 wifi
  let second := nor.program (nor.erase first 0xf1000) 0xf1000 eth
  have wifiRead : read second 0xf0000 8 = wifi := by
    rw [read_program_disjoint nor _ 0xf0000 8 0xf1000 eth (Or.inl (by decide)),
      read_erase_other nor first 0xf0000 8 0xf1000 fun a inside => by
        change a / 4096 ≠ 0xf1000 / 4096; obtain ⟨_,_⟩ := inside; omega]
    have stored := read_program_erased nor_fresh (nor.erase flash 0xf0000) 0xf0000 wifi
      fun a inside => erased_range flash 0xf0000 0xf0000 8 (by decide) a (size _ ▸ inside)
    rwa [size] at stored
  have ethRead : read second 0xf1000 8 = eth := by
    have stored := read_program_erased nor_fresh (nor.erase first 0xf1000) 0xf1000 eth
      fun a inside => erased_range first 0xf1000 0xf1000 8 (by decide) a (size _ ▸ inside)
    rwa [size] at stored
  change [read second 0xf0000 8,read second 0xf1000 8] = [_,_]
  rw [wifiRead, ethRead]
  change [wifi,eth] = [wifi.take 8,eth.take 8]
  rw [List.take_of_length_le (Nat.le_of_eq (size _)), List.take_of_length_le (Nat.le_of_eq (size _))]

private theorem plain_iff {x : Setting} (plain : x.erases = false) (g : Globals) (flash : Content UInt8) :
    x.loaded (flashOps nor g (saveOps x) flash) = x.kept (x.saved g) ↔ x.Takes g flash := by
  cases x with
  | token => exact plain_loaded_iff g flash rfl rfl
  | link => exact plain_loaded_iff g flash rfl rfl
  | ssid => exact plain_loaded_iff g flash rfl rfl
  | key => exact plain_loaded_iff g flash rfl rfl
  | _ => contradiction

private theorem erasing_loaded {x : Setting} (erases : x.erases = true) (g : Globals) (flash : Content UInt8) :
    x.loaded (flashOps nor g (saveOps x) flash) = x.kept (x.saved g) := by
  cases x with
  | internet => exact array_loaded g flash rfl rfl (by decide)
  | config => exact array_loaded g flash rfl rfl (by decide)
  | ip => exact ip_loaded g flash
  | dhcp => exact dhcp_loaded g flash
  | _ => contradiction

private theorem loaded_iff (x : Setting) (g : Globals) (flash : Content UInt8) :
    x.loaded (flashOps nor g (saveOps x) flash) = x.kept (x.saved g) ↔
      x.erases = true ∨ x.Takes g flash := by
  cases kind : x.erases with
  | true => exact ⟨fun _ => Or.inl rfl,fun _ => erasing_loaded kind g flash⟩
  | false => simpa using plain_iff kind g flash

/-- The next boot, from any variables, reads the bytes that were saved. -/
def Setting.Overwritten (x : Setting) (g : Globals) (flash : Content UInt8) : Prop :=
  ∀ h, ∃ h', execOps nor bootReads h (flashOps nor g (saveOps x) flash) =
      .ok (h',flashOps nor g (saveOps x) flash) ∧ x.bootBytes h' = x.kept (x.saved g)

private theorem overwritten_iff (x : Setting) (g : Globals) (flash : Content UInt8) :
    x.Overwritten g flash ↔ x.loaded (flashOps nor g (saveOps x) flash) = x.kept (x.saved g) := by
  constructor
  · intro overwritten
    obtain ⟨h',read,equal⟩ := overwritten g
    obtain ⟨h'',read',loaded⟩ := bootReads_loaded nor g (flashOps nor g (saveOps x) flash)
    have same : h' = h'' := congrArg Prod.fst (Except.ok.inj (read.symm.trans read'))
    rw [← loaded x, ← same]
    exact equal
  · intro equal h
    obtain ⟨h',read,loaded⟩ := bootReads_loaded nor h (flashOps nor g (saveOps x) flash)
    exact ⟨h',read,(loaded x).trans equal⟩

/-- After the save of a setting the boot section reads the saved bytes exactly when the save
erases its pages, or every new byte only clears bits of the byte it replaces. -/
theorem save_overwrites_iff (x : Setting) (g : Globals) (flash : Content UInt8) :
    x.Overwritten g flash ↔ x.erases = true ∨ x.Takes g flash :=
  (overwritten_iff x g flash).trans (loaded_iff x g flash)

/-- A token saved where the flash holds zeros is read back as zeros. -/
theorem token_not_overwritten : ¬ ∀ (x : Setting) (g : Globals) (flash : Content UInt8), x.Overwritten g flash := by
  intro overwrites
  let g := { Globals.initial (zeros 235) with apiToken := strcpyLit (zeros 240) "1" }
  have takes := (plain_iff rfl g _).mp ((overwritten_iff .token g _).mp (overwrites .token g fun _ => 0))
  have size : 0 < g.apiToken.toList.length := by rw [g.apiToken.toList_length]; decide
  have first := takes _ List.mem_cons_self 0 size (by decide)
  change (0 : UInt8) &&& 49 = 49 at first
  exact absurd first (by decide)

def saveStep (cell : UInt8 → UInt8 → UInt8) (flash : Content UInt8) (save : Setting × Globals) :
    Option (Content UInt8) :=
  some (flashOps (paged cell) save.2 (saveOps save.1) flash)

/-- The save leaves the stored bytes of every other setting as they are. -/
def Isolated (cell : UInt8 → UInt8 → UInt8) (flash : Content UInt8) (save : Setting × Globals) : Prop :=
  ∀ y, y ≠ save.1 → y.loaded (flashOps (paged cell) save.2 (saveOps save.1) flash) = y.loaded flash

/-- A save of the internet mode finds nothing stored for the settings that share its page. -/
def PageFree (flash : Content UInt8) (save : Setting × Globals) : Prop :=
  save.1 = .internet → ∀ y : Setting, y.sharesPage = true →
    ∀ part ∈ y.parts, ∀ a, Inside part.addr part.load a → flash a = 0xff

private theorem shared_apart {y : Setting} (shares : y.sharesPage = true) {part : Part} (member : part ∈ y.parts) :
    (∀ a, Inside part.addr part.load a → a / 4096 = 0xee000 / 4096) ∧
      Flash.Disjoint part.addr part.load 0xee000 240 := by
  cases y with
  | token | link | ssid | key =>
    cases List.mem_singleton.mp member
    refine ⟨?_,Or.inr (by decide)⟩
    rintro a ⟨low,high⟩
    simp only [Part.array] at low high
    omega
  | _ => contradiction

private theorem internet_shared (cell : UInt8 → UInt8 → UInt8) (g : Globals) (flash : Content UInt8) {y : Setting}
    (shares : y.sharesPage = true) :
    y.loaded (flashOps (paged cell) g (saveOps .internet) flash) = y.loaded flash ↔
      ∀ part ∈ y.parts, ∀ a, Inside part.addr part.load a → flash a = 0xff := by
  unfold Setting.loaded
  rw [List.map_inj_left]
  refine forall₂_congr fun part member => ?_
  obtain ⟨samePage,apart⟩ := shared_apart shares member
  have size : (g.isInternet.toList.take 240).length = 240 := by simp [g.isInternet.toList_length]
  change read ((paged cell).program ((paged cell).erase flash 0xee000) 0xee000 (g.isInternet.toList.take 240))
    part.addr part.load = _ ↔ _
  rw [read_program_disjoint _ _ _ _ _ _ (size.symm ▸ apart)]
  exact read_erase_iff (paged cell) flash part.addr part.load 0xee000 samePage

private theorem isolated_iff (cell : UInt8 → UInt8 → UInt8) (flash : Content UInt8) (save : Setting × Globals) :
    Isolated cell flash save ↔ PageFree flash save := by
  constructor
  · intro isolated internet y shares
    have other : y ≠ save.1 := by rintro rfl; rw [internet] at shares; contradiction
    have same := isolated y other
    rw [internet] at same
    exact (internet_shared cell save.2 flash shares).mp same
  · intro free y other
    by_cases shared : save.1 = .internet ∧ y.sharesPage = true
    · rw [shared.1]
      exact (internet_shared cell save.2 flash shared.2).mpr (free shared.1 y shared.2)
    · exact loaded_apart cell save.2 flash (saveOps_apart other fun internet => by simpa [internet] using shared)

/-- In every sequence of saves, on any kind of cell, each save leaves the other settings alone
exactly when each save of the internet mode finds their ranges in its page erased. -/
theorem saves_isolated_iff (cell : UInt8 → UInt8 → UInt8) (flash : Content UInt8) (saves : List (Setting × Globals)) :
    Meets (saveStep cell) (Isolated cell) flash saves ↔ Meets (saveStep cell) PageFree flash saves :=
  meets_congr (fun flash save _ _ => isolated_iff cell flash save) flash saves

/-- Saving the internet mode erases the token. -/
theorem token_erased : ¬ ∀ cell flash saves, Meets (saveStep cell) (Isolated cell) flash saves := by
  intro isolated
  obtain ⟨first,_⟩ := isolated (fun _ new => new) (fun _ => 0) [(.internet,Globals.initial (zeros 235))] _ rfl
  have blank := (isolated_iff _ _ _).mp first rfl .token rfl _ List.mem_cons_self 0xee200 ⟨Nat.le_refl _,by decide⟩
  exact absurd blank (by decide)

end PulseFirmware
