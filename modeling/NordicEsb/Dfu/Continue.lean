import NordicEsb.Lib.Flash
import NordicEsb.Lib.Machine

/-!
# Activating an Application

`nrf_dfu_utils.c` runs after each reset. If the settings say that bank 1 holds a new application, it
is copied down to bank 0, page by page: the target page is erased and programmed, the source page
is erased, and the progress is saved. At the end the checksum is taken, bank 0 is marked as valid and
bank 1 as invalid.

- `Dfu.Phase` stands between any two operations on the flash memory
- `Dfu.step` is the next operation, or a loss of power

Addresses are byte addresses, as in the source; the flash memory is an array of 32-bit words.
-/

namespace NordicEsb.Dfu

/-! ## §1 Settings -/

/-- The codes of a bank, `NRF_DFU_BANK_...`. -/
inductive BankCode where
  | invalid
  | validApp
  | validSd
  | validBl
  | validSdBl
deriving DecidableEq, Repr

/-- `nrf_dfu_bank_t` -/
structure NrfDfuBank where
  imageSize : ℕ
  imageCrc : BitVec 32
  bankCode : BankCode
deriving DecidableEq

/-- `bank_layout` -/
inductive BankLayout where
  | dual
  | single
deriving DecidableEq, Repr

/-- `bank_current` -/
inductive BankCurrent where
  | bank0
  | bank1
deriving DecidableEq, Repr

/-- The part of `nrf_dfu_settings_t` that decides how an update is continued. -/
structure NrfDfuSettings where
  bankLayout : BankLayout
  bankCurrent : BankCurrent
  bank0 : NrfDfuBank
  bank1 : NrfDfuBank
  writeOffset : ℕ
  sdSize : ℕ
deriving DecidableEq

/-- `nrf_dfu_invalidate_bank(&s_dfu_settings.bank_1)` -/
def nrfDfuInvalidateBank1 (s : NrfDfuSettings) : NrfDfuSettings :=
  { s with
    bank1 := ⟨0, 0, .invalid⟩
    writeOffset := 0
    sdSize := 0
    bankLayout := .dual
    bankCurrent := .bank0 }

/-! ## §2 Memory -/

/-- The device: its pages, where the main application starts, and the comparison of the MBR, which
    accepts equal words. -/
structure Platform where
  /-- The words of a page. -/
  pageWords : ℕ
  pageWords_pos : 0 < pageWords
  /-- The page of `MAIN_APPLICATION_START_ADDR`. -/
  mainPage : ℕ
  mainPage_pos : 0 < mainPage
  /-- `SD_MBR_COMMAND_COMPARE` -/
  mbrCompare : List (BitVec 32) → List (BitVec 32) → Bool
  mbrCompare_self : ∀ ws, mbrCompare ws ws = true

namespace Platform

variable (p : Platform)

/-- `CODE_PAGE_SIZE` -/
def codePageSize : ℕ := 4 * p.pageWords

/-- `MAIN_APPLICATION_START_ADDR`, which is also `CODE_REGION_1_START`. -/
def mainApplicationStartAddr : ℕ := p.mainPage * p.codePageSize

end Platform

/-- `align_to_page` -/
def alignToPage (val pageSize : ℕ) : ℕ := (val + pageSize - 1) / pageSize * pageSize

/-- The byte at an address, in little-endian words. -/
def byteAt (f : Flash 32) (addr : ℕ) : BitVec 8 := (f (addr / 4)).extractLsb' (8 * (addr % 4)) 8

/-- The inner loop of `crc32_compute`, for one bit. -/
def crc32Bit (crc : BitVec 32) : BitVec 32 :=
  (crc >>> 1) ^^^ (0xEDB88320#32 &&& (if crc &&& 1#32 ≠ 0#32 then 0xFFFFFFFF#32 else 0#32))

/-- The loop of `crc32_compute`, for one byte. -/
def crc32Byte (crc : BitVec 32) (byte : BitVec 8) : BitVec 32 :=
  (List.range 8).foldl (fun crc _ => crc32Bit crc) (crc ^^^ byte.setWidth 32)

/-- `crc32_compute(p_data, size, NULL)` -/
def crc32Compute (f : Flash 32) (pData size : ℕ) : BitVec 32 :=
  ~~~((List.range size).foldl (fun crc i => crc32Byte crc (byteAt f (pData + i))) 0xFFFFFFFF#32)

/-- The results of the functions below. -/
inductive Ret where
  | success
  | nullArg
  | unalignedAddr
  | invalidArg
  /-- `NRF_ERROR_NULL`, of a comparison that fails. -/
  | null
deriving DecidableEq, Repr

/-- `nrf_dfu_flash_erase`, without a SoftDevice. -/
def nrfDfuFlashErase (p : Platform) (dest numPages : ℕ) (f : Flash 32) : Ret × Flash 32 :=
  if dest % p.codePageSize ≠ 0 then (.unalignedAddr, f)
  else (.success, f.erase (dest / 4) (numPages * p.pageWords))

/-- `nrf_dfu_flash_store`, without a SoftDevice: the length is in words. -/
def nrfDfuFlashStore (dest src lenWords : ℕ) (f : Flash 32) : Ret × Flash 32 :=
  if src = 0 ∨ dest = 0 then (.nullArg, f)
  else if src % 4 ≠ 0 ∨ dest % 4 ≠ 0 then (.unalignedAddr, f)
  else if lenWords = 0 then (.invalidArg, f)
  else (.success, f.copy (dest / 4) (src / 4) lenWords)

/-- `nrf_dfu_mbr_compare`: the length is in bytes. -/
def nrfDfuMbrCompare (p : Platform) (ptr1 ptr2 len : ℕ) (f : Flash 32) : Ret :=
  if p.mbrCompare (f.read (ptr1 / 4) (len / 4)) (f.read (ptr2 / 4) (len / 4)) then .success
  else .null

/-! ## §3 The copy -/

/-- The local variables of `nrf_dfu_app_continue`. -/
structure Locals where
  targetAddr : ℕ
  srcAddr : ℕ
  lengthLeft : ℕ
deriving DecidableEq, Repr

/-- `cur_len` -/
def Locals.curLen (p : Platform) (l : Locals) : ℕ :=
  if l.lengthLeft > p.codePageSize then p.codePageSize else l.lengthLeft

/-- Where the program is: between two operations on the flash memory. -/
inductive Phase where
  /-- `nrf_dfu_continue` is going to be called, after a reset. -/
  | start
  /-- The target page is going to be erased. -/
  | eraseTarget (l : Locals)
  /-- The page is going to be programmed, and compared. -/
  | store (l : Locals)
  /-- The source page is going to be erased. -/
  | eraseSource (l : Locals)
  /-- The progress is going to be saved. -/
  | saveOffset (l : Locals)
  /-- All pages are copied. -/
  | finish
  /-- `nrf_dfu_continue` has returned. -/
  | returned (ret : Ret)
  /-- Another kind of update is continued. -/
  | other
deriving DecidableEq, Repr

/-- The device. -/
structure State where
  flash : Flash 32
  /-- The settings in the flash memory. -/
  saved : NrfDfuSettings
  /-- `s_dfu_settings` -/
  settings : NrfDfuSettings
  phase : Phase

/-- `nrf_dfu_app_continue`, up to the loop. -/
def appContinue (p : Platform) (srcAddr : ℕ) (s : State) : State :=
  let l : Locals :=
    { targetAddr := p.mainApplicationStartAddr + s.settings.writeOffset
      srcAddr := srcAddr
      lengthLeft := s.settings.bank1.imageSize - s.settings.writeOffset }
  { s with phase := .eraseTarget l }

/-- `nrf_dfu_continue_bank` -/
def nrfDfuContinueBank (p : Platform) (bank : NrfDfuBank) (srcAddr : ℕ) (s : State) : State :=
  match bank.bankCode with
  | .validApp =>
    if s.settings.bankCurrent = .bank1 then appContinue p srcAddr s
    else { s with phase := .returned .success }
  | .validSd | .validBl | .validSdBl => { s with phase := .other }
  | .invalid => { s with phase := .returned .success }

/-- `nrf_dfu_continue` -/
def nrfDfuContinue (p : Platform) (s : State) : State :=
  if s.settings.bankLayout = .single then
    nrfDfuContinueBank p s.settings.bank0 p.mainApplicationStartAddr s
  else if s.settings.bankCurrent = .bank0 then
    nrfDfuContinueBank p s.settings.bank0 p.mainApplicationStartAddr s
  else
    nrfDfuContinueBank p s.settings.bank1
      (p.mainApplicationStartAddr + alignToPage s.settings.bank0.imageSize p.codePageSize) s

/-- Erase the target page. -/
def stepEraseTarget (p : Platform) (l : Locals) (s : State) : State :=
  let (ret, flash) := nrfDfuFlashErase p l.targetAddr 1 s.flash
  if ret ≠ .success then { s with flash := flash, phase := .returned ret }
  else { s with flash := flash, phase := .store l }

/-- Program the page and compare it. -/
def stepStore (p : Platform) (l : Locals) (s : State) : State :=
  let (ret, flash) := nrfDfuFlashStore l.targetAddr l.srcAddr (l.curLen p) s.flash
  if ret ≠ .success then { s with flash := flash, phase := .returned ret }
  else
    let ret := nrfDfuMbrCompare p l.targetAddr l.srcAddr (l.curLen p) flash
    if ret ≠ .success then { s with flash := flash, phase := .returned ret }
    else { s with flash := flash, phase := .eraseSource l }

/-- Erase the source page. -/
def stepEraseSource (p : Platform) (l : Locals) (s : State) : State :=
  let (ret, flash) := nrfDfuFlashErase p l.srcAddr 1 s.flash
  if ret ≠ .success then { s with flash := flash, phase := .returned ret }
  else { s with flash := flash, phase := .saveOffset l }

/-- Save the progress, and go on if something is left. -/
def stepSaveOffset (p : Platform) (l : Locals) (s : State) : State :=
  let settings := { s.settings with writeOffset := s.settings.writeOffset + l.curLen p }
  let l : Locals :=
    { targetAddr := l.targetAddr + l.curLen p
      srcAddr := l.srcAddr + l.curLen p
      lengthLeft := l.lengthLeft - l.curLen p }
  { s with
    settings := settings
    saved := settings
    phase := if l.lengthLeft > 0 then .eraseTarget l else .finish }

/-- The end of `nrf_dfu_app_continue`, behind the loop. -/
def stepFinish (p : Platform) (s : State) : State :=
  let imageSize := s.settings.bank1.imageSize
  let crc := crc32Compute s.flash p.mainApplicationStartAddr imageSize
  let settings :=
    if crc = s.settings.bank1.imageCrc then
      { s.settings with bank0 := ⟨imageSize, crc, .validApp⟩ }
    else s.settings
  let settings := nrfDfuInvalidateBank1 settings
  { s with settings := settings, saved := settings, phase := .returned .success }

/-- The next operation. -/
def State.next (p : Platform) (s : State) : State :=
  match s.phase with
  | .start => nrfDfuContinue p s
  | .eraseTarget l => stepEraseTarget p l s
  | .store l => stepStore p l s
  | .eraseSource l => stepEraseSource p l s
  | .saveOffset l => stepSaveOffset p l s
  | .finish => stepFinish p s
  | .returned _ | .other => s

/-- What happens next. -/
inductive Event where
  | next
  /-- The power is lost, and comes back: the settings are read from the flash memory. -/
  | powerLost
deriving DecidableEq, Repr

/-- One event. -/
def step (p : Platform) (s : State) : Event → State
  | .next => s.next p
  | .powerLost => { s with settings := s.saved, phase := .start }

end NordicEsb.Dfu
