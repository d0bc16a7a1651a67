import Mathlib.Data.List.DropRight
import Mathlib.Data.List.Nodup
import SscOnWindows.Driver.Inf
import SscOnWindows.Driver.Mode

/-!
# Switching the driver of the dongle

`set_dongle_winusb` switches a dongle to WinUSB or back: it removes the packages for WinUSB that
match the dongle, installs one of its own, and has Windows choose a driver again.  All of this is
done by programs that are run one after the other, and any of them can fail, also when it has done
its work.

Windows is given by what it answers at each time; the time counts what it has been asked.
-/

namespace Ssc.Driver

open TextSearch

inductive DongleSwitchResult where
  | ok
  | notPresent
  | noChange
  | infWriteError
  | elevationCancelled
  | pnpError
  deriving DecidableEq, Repr

structure DongleSwitchReport where
  result : DongleSwitchResult
  message : List Char
  deriving DecidableEq, Repr

/-! ### Windows -/

/-- The programs that are run, with the files they are given. -/
inductive Command where
  | deleteDriver (inf : List Char)
  | certSetup (psPath : List Char)
  | makecat (tool ddfPath : List Char)
  | signtool (tool pfx catPath : List Char)
  | addDriver (infPath : List Char)
  | removeDevice (instanceId : List Char)
  | scanDevices
  deriving DecidableEq, Repr

def quote (s : List Char) : List Char :=
  '"' :: s ++ ['"']

def kSignerPw : List Char := chars "a2dpwb-pw-2026!"

namespace Command

def file : Command → List Char
  | deleteDriver _ | addDriver _ | removeDevice _ | scanDevices => chars "pnputil.exe"
  | certSetup _ => chars "powershell.exe"
  | makecat tool _ => tool
  | signtool tool _ _ => tool

def args : Command → List Char
  | deleteDriver inf => chars "/delete-driver " ++ inf ++ chars " /uninstall"
  | certSetup psPath => chars "-NoProfile -ExecutionPolicy Bypass -File " ++ quote psPath
  | makecat _ ddfPath => quote ddfPath
  | signtool _ pfx catPath =>
      chars "sign /f " ++ quote pfx ++ chars " /p " ++ quote kSignerPw
      ++ chars " /fd SHA256 /td SHA256 " ++ quote catPath
  | addDriver infPath => chars "/add-driver " ++ quote infPath ++ chars " /install /force"
  | removeDevice instanceId => chars "/remove-device " ++ quote instanceId
  | scanDevices => chars "/scan-devices"

def elevated : Command → Bool
  | makecat _ _ | signtool _ _ _ => false
  | _ => true

/-- The command is one of `pnputil`. -/
def isPnputil : Command → Bool
  | deleteDriver _ | addDriver _ | removeDevice _ | scanDevices => true
  | certSetup _ | makecat _ _ | signtool _ _ _ => false

end Command

/-- How a program has ended: it was not launched, with the last error, or it has exited. -/
inductive Launch where
  | notLaunched (error : ℕ)
  | exited (code : ℕ)
  deriving DecidableEq, Repr

/-- `ERROR_CANCELLED` -/
def errorCancelled : ℕ := 1223

/-- The INF files of the system, of different names. -/
structure InfDirectory where
  files : List InfFile
  nodup : (files.map InfFile.name).Nodup

namespace InfDirectory

/-- The directory without a file. -/
def remove (d : InfDirectory) (name : List Char) : InfDirectory where
  files := d.files.filter (·.name ≠ name)
  nodup := (List.filter_sublist.map InfFile.name).nodup d.nodup

/-- The directory with one more file, of a name that is not used. -/
def add (d : InfDirectory) (f : InfFile) (h : f.name ∉ d.files.map InfFile.name) :
    InfDirectory where
  files := d.files ++ [f]
  nodup := by
    rw [List.map_append]
    apply d.nodup.append (List.nodup_singleton _)
    apply List.disjoint_singleton.mpr h

end InfDirectory

/-- How Windows names a new package. -/
structure Naming where
  name : List (List Char) → List Char
  fresh : ∀ names, name names ∉ names

/-- What Windows answers at each time. -/
structure Answers where
  naming : Naming
  /-- the INF files can be listed -/
  lists : ℕ → Bool
  localAppData : ℕ → Option (List Char)
  tempPath : ℕ → Option (List Char)
  /-- a file can be opened for reading -/
  opens : ℕ → List Char → Bool
  /-- a file can be opened for writing, and how many characters it then takes -/
  writes : ℕ → List Char → Option ℕ
  /-- the path of a tool of the SDK, which is empty when it is not found -/
  sdkTool : ℕ → List Char → List Char
  launches : ℕ → Command → Launch
  /-- a program that has failed has done its work -/
  doesWork : ℕ → Command → Bool

/-- Windows with its INF files, the INF in the directory for temporary files, and the commands of
`pnputil` that have been run. -/
structure Windows where
  dir : InfDirectory
  tempInf : List Char := []
  time : ℕ := 0
  log : List (Command × Launch) := []

/-- The directory with a package of a text. -/
def InfDirectory.publish (naming : Naming) (d : InfDirectory) (text : List Char) : InfDirectory :=
  d.add ⟨naming.name (d.files.map InfFile.name), some text⟩ (naming.fresh _)

/-- The INF files when a command has done its work and the INF that is added has a text. -/
def InfDirectory.after (naming : Naming) (text : List Char) (d : InfDirectory) :
    Command → InfDirectory
  | .deleteDriver inf => d.remove inf
  | .addDriver _ => d.publish naming text
  | _ => d

/-! ### Programs -/

/-- What can end with an error and uses Windows. -/
abbrev Fallible (ε α : Type) := ExceptT ε (StateM Windows) α

variable (os : Answers)

/-- The time at which Windows is asked. -/
def tick : StateM Windows ℕ :=
  modifyGet fun w => (w.time, { w with time := w.time + 1 })

/-- What `run_program` says about a program that has not done what it should. -/
def launchError (c : Command) : Launch → Option (List Char)
  | .notLaunched error =>
      some (if c.elevated ∧ error = errorCancelled then chars "Elevation cancelled by user."
        else snprintf 192 (chars "Failed to launch " ++ c.file ++ chars " (error "
          ++ Nat.toDigits 10 error ++ chars ")."))
  | .exited code =>
      if code ≠ 0 then some (snprintf 192 (c.file ++ chars " exited with code "
        ++ Nat.toDigits 10 code ++ chars "."))
      else none

/-- A command has done its work: a program of Windows has when it has exited with zero, and may
have when it has exited with something else. -/
def Launch.works (doesWork : Bool) : Launch → Bool
  | .notLaunched _ => false
  | .exited code => code = 0 ∨ doesWork

/-- Windows when a command has ended. -/
def Windows.ran (w : Windows) (c : Command) (launch : Launch) (doesWork : Bool) : Windows :=
  { w with
    dir := if launch.works doesWork then w.dir.after os.naming w.tempInf c else w.dir
    log := if c.isPnputil then w.log ++ [(c, launch)] else w.log }

def runProgram (c : Command) : Fallible (List Char) Unit := do
  let now ← tick
  modify fun w => w.ran os c (os.launches now c) (os.doesWork now c)
  match launchError c (os.launches now c) with
  | some err => throw err
  | none => pure ()

/-- `run_ok`, for a command of `pnputil`. -/
def runOk (c : Command) : Fallible DongleSwitchReport Unit :=
  ExceptT.adapt (fun err =>
    { result := if (chars "Elevation cancelled").isPrefixOf err then .elevationCancelled
        else .pnpError
      message := err }) (runProgram os c)

def kInfName : List Char := chars "a2dpwb_winusb.inf"

def kTmpDdfName : List Char := chars "a2dpwb_winusb.ddf"

/-- `local_app_data`: the directory with a backslash at its end. -/
def localAppData : StateM Windows (Option (List Char)) := do
  match os.localAppData (← tick) with
  | none => return none
  | some dir =>
      if dir = [] then return none
      else return some (dir.map (fun c => if c = '/' then '\\' else c) ++ chars "\\")

def writeFile (path : List Char) : Fallible (List Char) ℕ := do
  match os.writes (← tick) path with
  | none => throw (chars "Could not write " ++ path)
  | some n => return n

def ensureSigningPfx : Fallible (List Char) (List Char) := do
  match ← localAppData os with
  | none => throw (chars "Could not resolve %LOCALAPPDATA%.")
  | some appdata =>
      let dir := appdata ++ chars "A2DPWB"
      let pfx := dir ++ chars "\\a2dpwb.pfx"
      if os.opens (← tick) pfx then return pfx
      match os.tempPath (← tick) with
      | none => throw (chars "Could not resolve the temp directory.")
      | some tmpPath =>
          let psPath := tmpPath ++ chars "a2dpwb_cert_setup.ps1"
          let _ ← writeFile os psPath
          runProgram os (.certSetup psPath)
          if os.opens (← tick) pfx then return pfx
          else throw (chars "Signing certificate setup produced no PFX.")

/-- The INF that is written may be cut short: what `fwrite` returns is not looked at. -/
def writeWinusbInf (path : List Char) (vid pid : UInt16) : Fallible (List Char) Unit := do
  let n ← writeFile os path
  modify fun w => { w with tempInf := (winusbInf vid pid).take n }

def makeCatalog (ddfPath resultDir : List Char) : Fallible (List Char) Unit := do
  let makecat := os.sdkTool (← tick) (chars "makecat.exe")
  if makecat = [] then
    throw (chars "Windows SDK makecat.exe not found (need the Windows 10+ SDK tools).")
  let _ ← writeFile os ddfPath
  runProgram os (.makecat makecat ddfPath)
  let cat := resultDir ++ chars "\\" ++ kCatName
  if os.opens (← tick) cat then return ()
  else throw (chars "makecat produced no catalog.")

def signCatalog (catPath pfx : List Char) : Fallible (List Char) Unit := do
  let signtool := os.sdkTool (← tick) (chars "signtool.exe")
  if signtool = [] then
    throw (chars "Windows SDK signtool.exe not found (need the Windows 10+ SDK tools).")
  runProgram os (.signtool signtool pfx catPath)

def installWinusbPackage (vid pid : UInt16) : Fallible DongleSwitchReport Unit := do
  let pfx ← ExceptT.adapt
    (fun err => ⟨.pnpError, chars "Signing certificate setup failed: " ++ err⟩)
    (ensureSigningPfx os)
  match os.tempPath (← tick) with
  | none => throw ⟨.infWriteError, chars "Could not resolve the temp directory."⟩
  | some tmp =>
      let infPath := tmp ++ kInfName
      let ddfPath := tmp ++ kTmpDdfName
      ExceptT.adapt (fun err => ⟨.infWriteError, err⟩) (writeWinusbInf os infPath vid pid)
      let resultDir := tmp.rdropWhile (fun c => c = '\\' ∨ c = '/')
      ExceptT.adapt (fun err => ⟨.pnpError, err⟩) (makeCatalog os ddfPath resultDir)
      let catPath := resultDir ++ chars "\\" ++ kCatName
      ExceptT.adapt (fun err => ⟨.pnpError, err⟩) (signCatalog os catPath pfx)
      runOk os (.addDriver infPath)

/-- `find_winusb_infs`, which finds nothing when the INF files cannot be listed. -/
def findInfs (vid pid : UInt16) : StateM Windows (List (List Char)) := do
  let now ← tick
  let w ← get
  return if os.lists now then findWinusbInfs w.dir.files vid pid else []

/-- The message about a dongle that is not there. -/
def absent (vid pid : UInt16) : List Char :=
  snprintf 96 (chars "No UB500 (VID 0x" ++ upperHexWord vid ++ chars "/PID 0x"
    ++ upperHexWord pid ++ chars ") device node found.")

/-- The loop that removes packages. -/
def deleteDrivers : List (List Char) → Fallible DongleSwitchReport Unit
  | [] => pure ()
  | inf :: infs => do
      runOk os (.deleteDriver inf)
      deleteDrivers infs

/-- The packages for WinUSB are removed. -/
def cleanStore (vid pid : UInt16) : Fallible DongleSwitchReport Unit := do
  let infs ← findInfs os vid pid
  deleteDrivers os infs

/-- Windows chooses a driver again. -/
def reevaluate (instanceId : List Char) : Fallible DongleSwitchReport Unit := do
  if instanceId ≠ [] then runOk os (.removeDevice instanceId) else pure ()
  runOk os .scanDevices

/-- `set_dongle_winusb` up to its report. -/
def switchDongle (devs : List DeviceNode) (vid pid : UInt16) (enableWinusb : Bool) :
    Fallible DongleSwitchReport DongleSwitchReport :=
  let st := detectDongleDriver devs vid pid
  if st.mode = .notPresent then throw ⟨.notPresent, absent vid pid⟩
  else if (enableWinusb ∧ st.mode = .winUsbStream) ∨ (¬ enableWinusb ∧ st.mode = .bthUsb) then
    throw ⟨.noChange, if enableWinusb then chars "Dongle is already in WinUSB (Streaming) mode."
      else chars "Dongle is already in BTHUSB (Windows Bluetooth) mode."⟩
  else do
    cleanStore os vid pid
    if enableWinusb then installWinusbPackage os vid pid else pure ()
    reevaluate os st.instanceId
    return ⟨.ok, if enableWinusb
      then chars "WinUSB driver installed. Streaming mode should now be active (re-detecting...)."
      else chars "WinUSB packages removed, device restored for BTHUSB (re-detecting...)."⟩

/-- The report of a call, and Windows after it. -/
def setDongleWinusb (devs : List DeviceNode) (vid pid : UInt16) (enableWinusb : Bool)
    (w : Windows) : DongleSwitchReport × Windows :=
  match (switchDongle os devs vid pid enableWinusb).run.run w with
  | (.ok rep, w) => (rep, w)
  | (.error rep, w) => (rep, w)

end Ssc.Driver
