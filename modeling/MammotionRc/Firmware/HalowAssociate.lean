import MammotionRc.Firmware.ConfigLoad
import MammotionRc.Machine.CString

/-! # Joining the HaLow network

`halow_associate_with_retry` copies the configured SSID and passphrase into the arguments of the driver and
hands the same arguments over on every attempt. The SSID array of the driver has no room for a NUL; its
length stands beside it.
-/

namespace MammotionRc.Firmware

open Machine

def MMWLAN_SSID_MAXLEN : ℕ := 32

def MMWLAN_PASSPHRASE_MAXLEN : ℕ := 100

inductive SecurityType
  | «open»
  | owe
  | sae
  | other
deriving DecidableEq, Repr

inductive PmfMode
  | required
  | disabled
deriving DecidableEq, Repr

/-- `mmwlan_sta_args`, as far as it is filled in. -/
structure MmwlanStaArgs where
  ssid : CharArray MMWLAN_SSID_MAXLEN
  ssidLen : UInt16
  securityType : SecurityType
  passphrase : CharArray (MMWLAN_PASSPHRASE_MAXLEN + 1)
  passphraseLen : UInt16
  pmfMode : PmfMode
deriving DecidableEq

/-- `MMWLAN_STA_ARGS_INIT`. -/
def MmwlanStaArgs.init : MmwlanStaArgs where
  ssid := .replicate _ 0
  ssidLen := 0
  securityType := .open
  passphrase := .replicate _ 0
  passphraseLen := 0
  pmfMode := .required

def WIFI_SECURITY_HALOW : SecurityType := .sae

/-- `strncpy(dst, src, sizeof(dst) - 1)`. -/
def strncpyField {n m : ℕ} (dst : CharArray n) (src : CharArray m) : CharArray n :=
  ⟨strncpy dst.toList src.toList (n - 1), by
    rw [length_strncpy, dst.toList_length]
    omega⟩

/-- The arguments that `halow_associate_with_retry` fills in. -/
def staArgs (g_cfg : Hc33ConfigV1) : MmwlanStaArgs :=
  let sta_args := MmwlanStaArgs.init
  let sta_args := { sta_args with ssid := strncpyField sta_args.ssid g_cfg.uplinkSsid }
  let sta_args := { sta_args with ssidLen := UInt16.ofNat (strlen sta_args.ssid.toList) }
  let sta_args := { sta_args with passphrase := strncpyField sta_args.passphrase g_cfg.uplinkPass }
  let sta_args := { sta_args with passphraseLen := UInt16.ofNat (strlen sta_args.passphrase.toList) }
  let sta_args := { sta_args with securityType := WIFI_SECURITY_HALOW }
  if sta_args.securityType = .open then { sta_args with pmfMode := .disabled } else sta_args

/-- How an attempt ends: `mmwlan_sta_enable` fails, the station stays in some other state for too long, or it
connects. -/
inductive Attempt
  | refused
  | stuck
  | connected
deriving DecidableEq, Repr

/-- The attempts from number `attempt` on, of which `left` remain: the arguments of every call of
`mmwlan_sta_enable`, and the result. -/
def associate (sta_args : MmwlanStaArgs) (outcome : ℕ → Attempt) (attempt : ℕ) : ℕ → List MmwlanStaArgs × Bool
  | 0 => ([], false)
  | left + 1 =>
    match outcome attempt with
    | .connected => ([sta_args], true)
    | .refused | .stuck =>
      let later := associate sta_args outcome (attempt + 1) left
      (sta_args :: later.1, later.2)

def halowAssociateWithRetry (g_cfg : Hc33ConfigV1) (outcome : ℕ → Attempt) : List MmwlanStaArgs × Bool :=
  associate (staArgs g_cfg) outcome 1 8

theorem mem_associate {sta_args args : MmwlanStaArgs} {outcome : ℕ → Attempt} {attempt left : ℕ}
    (member : args ∈ (associate sta_args outcome attempt left).1) : args = sta_args := by
  induction left generalizing attempt with
  | zero => exact absurd member List.not_mem_nil
  | succ left ih =>
    rw [associate] at member
    split at member
    · exact List.mem_singleton.mp member
    all_goals
      rcases List.mem_cons.mp member with first | later
      · exact first
      · exact ih later

/-- The driver is called at least once, and always with the same arguments. -/
theorem forall_halowAssociateWithRetry {g_cfg : Hc33ConfigV1} {outcome : ℕ → Attempt} {p : MmwlanStaArgs → Prop} :
    (∀ args ∈ (halowAssociateWithRetry g_cfg outcome).1, p args) ↔ p (staArgs g_cfg) := by
  constructor
  · intro all
    apply all
    rw [halowAssociateWithRetry, associate]
    split <;> exact List.mem_cons_self
  · intro held args member
    rw [mem_associate member]
    exact held

end MammotionRc.Firmware
