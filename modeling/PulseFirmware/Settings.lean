import PulseFirmware.Globals
import PulseFirmware.Lib.Flash

/-! The settings the storage task keeps in flash: where each lies, which variables hold the
bytes to be saved, what marks it as changed and where its working copy is. -/
namespace PulseFirmware
open PulseFirmware.CString PulseFirmware.Flash

def word (v : UInt32) : List UInt8 :=
  [v.toUInt8,(v >>> 8).toUInt8,(v >>> 16).toUInt8,(v >>> 24).toUInt8]

def unword (bytes : List UInt8) : UInt32 := bytes.foldr (fun b v => v * 256 + b.toUInt32) 0

@[simp] theorem word_length (v : UInt32) : (word v).length = 4 := rfl

inductive Setting
  | token
  | link
  | ssid
  | key
  | internet
  | config
  | ip
  | dhcp
deriving DecidableEq

instance Setting.decidableForall {p : Setting → Prop} [DecidablePred p] : Decidable (∀ x, p x) :=
  decidable_of_iff (∀ x ∈ [Setting.token,.link,.ssid,.key,.internet,.config,.ip,.dhcp], p x)
    ⟨fun all x => all x (by cases x <;> decide),fun all x _ => all x⟩

/-- A range of flash: `len` bytes are written from the source, `load` are read back at boot. -/
structure Part where
  addr : Nat
  len : Nat
  load : Nat
  src : Globals → List UInt8
  size : ∀ g, (src g).length = len
  fits : load ≤ len

def Part.array (addr : Nat) {n : Nat} (load : Nat) (src : Globals → Bytes n) (fits : load ≤ n) : Part :=
  ⟨addr,n,load,fun g => (src g).toList,fun g => (src g).toList_length,fits⟩

def Part.address (addr : Nat) (src : Globals → UInt32) : Part :=
  ⟨addr,4,4,fun g => word (src g),fun _ => rfl,Nat.le_refl 4⟩

def Part.flag (addr : Nat) (src : Globals → Bytes 50) : Part :=
  ⟨addr,8,8,fun g => (src g).toList.take 8,fun g => by simp [(src g).toList_length],Nat.le_refl 8⟩

def Setting.parts : Setting → List Part
  | .token => [.array 0xee200 240 (·.apiToken) (by decide)]
  | .link => [.array 0xee100 240 (·.apiLink) (by decide)]
  | .ssid => [.array 0xee500 80 (·.ssidSavedCopy) (by decide)]
  | .key => [.array 0xee600 80 (·.keyCopy) (by decide)]
  | .internet => [.array 0xee000 8 (·.isInternet) (by decide)]
  | .config => [.array 0xed000 48 (·.configString) (by decide)]
  | .ip => [.address 0xef000 (·.ipaddr),.address 0xef100 (·.gwaddr),.address 0xef200 (·.netmask)]
  | .dhcp => [.flag 0xf0000 (·.dhcpCheckWifi),.flag 0xf1000 (·.dhcpCheckEth)]

def Setting.saved (x : Setting) (g : Globals) : List (List UInt8) := x.parts.map (·.src g)

def Setting.stored (x : Setting) (flash : Content UInt8) : List (List UInt8) :=
  x.parts.map fun part => read flash part.addr part.len

/-- The bytes in flash, over the range the boot section reads. -/
def Setting.loaded (x : Setting) (flash : Content UInt8) : List (List UInt8) :=
  x.parts.map fun part => read flash part.addr part.load

/-- The part of a saved value the boot section reads. -/
def Setting.kept (x : Setting) (value : List (List UInt8)) : List (List UInt8) :=
  List.zipWith (fun part bytes => bytes.take part.load) x.parts value

/-- The condition under which the storage task saves the setting. -/
def Setting.pending : Setting → Globals → Bool
  | .token, g => strncmpEq g.apiTokenFirst.toList (literal "token") 5
  | .link, g => strncmpEq g.apiLinkFirst.toList (literal "link") 4
  | .ssid, g => g.ssidChanged
  | .key, g => g.keyChanged
  | .internet, g => strncmpEq g.isInternetFirst.toList (literal "internet") 8
  | .config, g => !strcmpEq g.configString.toList (literal "z")
  | .ip, g => strcmpEq g.ipaddressChanged.toList (literal "changed")
  | .dhcp, g => strcmpEq g.dhcpCheckChanged.toList (literal "true")

/-- The working copy in RAM holds the value: the same string, or for the configuration the
same 48 bytes. The other settings have none. -/
def Setting.working : Setting → Globals → List (List UInt8) → Prop
  | .token, g, value => value.map chars = [chars g.apiToken1.toList]
  | .link, g, value => value.map chars = [chars g.apiLink1.toList]
  | .internet, g, value => value.map chars = [chars g.isInternet1.toList]
  | .config, g, value => value.map (·.take 48) = [g.configString1.toList.take 48]
  | .ssid, _, _ | .key, _, _ | .ip, _, _ | .dhcp, _, _ => True

instance (x : Setting) (g : Globals) (value : List (List UInt8)) : Decidable (x.working g value) :=
  match x with
  | .token => inferInstanceAs (Decidable (value.map chars = [chars g.apiToken1.toList]))
  | .link => inferInstanceAs (Decidable (value.map chars = [chars g.apiLink1.toList]))
  | .internet => inferInstanceAs (Decidable (value.map chars = [chars g.isInternet1.toList]))
  | .config => inferInstanceAs (Decidable (value.map (·.take 48) = [g.configString1.toList.take 48]))
  | .ssid | .key | .ip | .dhcp => isTrue trivial

theorem unword_word (v : UInt32) : unword (word v) = v := by
  apply UInt32.toNat.inj
  have bound := v.toNat_lt
  simp [unword, word, Nat.shiftRight_eq_div_pow]
  omega

theorem word_unword (a b c d : UInt8) : word (unword [a,b,c,d]) = [a,b,c,d] := by
  have bounds := And.intro a.toNat_lt (And.intro b.toNat_lt (And.intro c.toNat_lt d.toNat_lt))
  simp only [word, List.cons.injEq, and_true]
  refine ⟨?_,?_,?_,?_⟩ <;> apply UInt8.toNat.inj <;>
    simp [unword, Nat.shiftRight_eq_div_pow] <;> omega

@[simp] theorem Setting.saved_length (x : Setting) (g : Globals) : (x.saved g).length = x.parts.length :=
  List.length_map _

@[simp] theorem Setting.stored_length (x : Setting) (flash : Content UInt8) :
    (x.stored flash).length = x.parts.length :=
  List.length_map _

theorem Setting.kept_stored (x : Setting) (flash : Content UInt8) : x.kept (x.stored flash) = x.loaded flash := by
  unfold kept stored loaded
  rw [List.zipWith_map_right, List.zipWith_self]
  exact List.map_congr_left fun part _ => read_take flash part.addr part.len part.load part.fits

end PulseFirmware
