import SscOnWindows.Driver.Plan
import SscOnWindows.Lib.Machine

/-!
# The packages that calls leave

What calls of `set_dongle_winusb` make of the INF files: the packages of others stay, also when a
call fails; a call that succeeds leaves one package for WinUSB and its device, or none; and there is
never more than one package of the app for a device.  Other programs add and remove packages between
the calls.
-/

namespace Ssc.Driver

open Machine TextSearch

variable {os : Answers} {vid pid : UInt16}

/-! ### The packages of others -/

theorem InfDirectory.eq_of_name (d : InfDirectory) {f g : InfFile} (hf : f ∈ d.files)
    (hg : g ∈ d.files) (h : f.name = g.name) :
  f = g
  := List.inj_on_of_nodup_map d.nodup hf hg h

/-- The packages that are found are those for WinUSB and the device. -/
theorem mem_findWinusbInfs (d : InfDirectory) {f : InfFile} (hf : f ∈ d.files) :
  f.name ∈ findWinusbInfs d.files vid pid ↔ f.isWinusb vid pid = true
  := by
  rw [findWinusbInfs, List.mem_map]
  constructor
  · rintro ⟨g, hg, hname⟩
    obtain ⟨hg, hwinusb⟩ := List.mem_filter.mp hg
    rw [d.eq_of_name hf hg hname.symm]
    apply hwinusb
  · intro hwinusb
    exact ⟨f, List.mem_filter.mpr ⟨hf, hwinusb⟩, rfl⟩

theorem Works.mem {d d' : InfDirectory} {c : Command} (h : Works os vid pid d c d') {f : InfFile}
    (hf : f ∈ d.files) (hc : c ≠ .deleteDriver f.name) :
  f ∈ d'.files
  := by
  obtain ⟨text, -, rfl⟩ := h
  cases c with
  | deleteDriver inf =>
      apply List.mem_filter.mpr ⟨hf, _⟩
      rw [decide_eq_true_iff]
      rintro rfl
      apply hc rfl
  | addDriver path => apply List.mem_append_left _ hf
  | certSetup | makecat | signtool | removeDevice | scanDevices => exact hf

/-- A file is removed by its name only. -/
theorem Ran.mem {d d' : InfDirectory} {es : List (Command × Launch)} (h : Ran os vid pid d es d')
    {f : InfFile} (hf : f ∈ d.files) (hes : .deleteDriver f.name ∉ es.map Prod.fst) :
  f ∈ d'.files
  := by
  induction h with
  | nil d => apply hf
  | succeeded hwork hrest ih =>
      rw [List.map_cons, List.mem_cons, not_or] at hes
      apply ih (hwork.mem hf (Ne.symm hes.1)) hes.2
  | failed hlaunch hwork =>
      rw [List.map_cons, List.mem_cons, not_or] at hes
      rcases hwork with rfl | hwork
      · apply hf
      · apply hwork.mem hf (Ne.symm hes.1)

/-- What happens to the INF files: a call, or another program adds or removes a package. -/
inductive StoreAction where
  | switch (devs : List DeviceNode) (vid pid : UInt16) (enableWinusb : Bool)
  | install (text : Option (List Char))
  | uninstall (name : List Char)

/-- One step. -/
def Windows.next (os : Answers) (w : Windows) : StoreAction → Option Windows
  | .switch devs vid pid enableWinusb => some (setDongleWinusb os devs vid pid enableWinusb w).2
  | .install text =>
      some { w with
        dir := w.dir.add ⟨os.naming.name (w.dir.files.map InfFile.name), text⟩
          (os.naming.fresh _) }
  | .uninstall name => some { w with dir := w.dir.remove name }

/-- What has been run up to a command had succeeded. -/
theorem Ran.split {d d₂ : InfDirectory} {es es' : List (Command × Launch)}
    (h : Ran os vid pid d (es ++ es') d₂) (hes' : es' ≠ []) :
  es = Driver.succeeded (es.map Prod.fst)
  ∧ ∃ d₁, Ran os vid pid d es d₁ ∧ Ran os vid pid d₁ es' d₂
  := by
  induction es generalizing d with
  | nil => exact ⟨rfl, d, Ran.nil d, h⟩
  | cons e es ih =>
      rw [List.cons_append] at h
      generalize hall : e :: (es ++ es') = all at h
      cases h with
      | nil => contradiction
      | succeeded hwork hrest =>
          obtain ⟨rfl, rfl⟩ := List.cons.inj hall
          obtain ⟨hes, d₁, hran, hran'⟩ := ih hrest
          refine ⟨?_, d₁, Ran.succeeded hwork hran, hran'⟩
          rw [List.map_cons, Driver.succeeded, List.map_cons]
          exact congrArg _ hes
      | failed hlaunch =>
          obtain ⟨-, hnil⟩ := List.cons.inj hall
          exact absurd (List.append_eq_nil_iff.mp hnil).2 hes'

/-- The packages that have been removed are gone. -/
theorem files_of_deleted {infs : List (List Char)} {d d' : InfDirectory}
    (h : Ran os vid pid d (succeeded (infs.map .deleteDriver)) d') :
  d'.files = d.files.filter (·.name ∉ infs)
  := by
  induction infs generalizing d with
  | nil =>
      cases h
      simp
  | cons inf infs ih =>
      obtain ⟨d₁, ⟨text, -, rfl⟩, hrest⟩ := ran_succeeded_cons h
      rw [ih hrest]
      change (d.files.filter _).filter _ = _
      rw [List.filter_filter]
      apply List.filter_congr
      intro f hf
      simp [Bool.and_comm]

/-- The packages of others. -/
def foreign (vid pid : UInt16) (d : InfDirectory) : List InfFile :=
  d.files.filter fun f => !f.isWinusb vid pid

/-- When the packages that were found have been removed, those of others are left. -/
theorem files_of_cleaned {d d' : InfDirectory}
    (h : Ran os vid pid d (succeeded ((findWinusbInfs d.files vid pid).map .deleteDriver)) d') :
  d'.files = foreign vid pid d
  := by
  rw [files_of_deleted h, foreign]
  apply List.filter_congr
  intro f hf
  rw [Bool.eq_iff_iff, decide_eq_true_iff, mem_findWinusbInfs d hf, Bool.not_eq_true',
    Bool.not_eq_true]

/-- A command that neither removes nor adds a package leaves the files. -/
theorem Works.eq_of_quiet {d d' : InfDirectory} {c : Command} (h : Works os vid pid d c d')
    (hdelete : ∀ inf, c ≠ .deleteDriver inf) (hadd : ∀ path, c ≠ .addDriver path) :
  d' = d
  := by
  obtain ⟨text, -, rfl⟩ := h
  cases c with
  | deleteDriver inf => exact absurd rfl (hdelete inf)
  | addDriver path => exact absurd rfl (hadd path)
  | certSetup | makecat | signtool | removeDevice | scanDevices => rfl

theorem Ran.eq_of_quiet {d d' : InfDirectory} {es : List (Command × Launch)}
    (h : Ran os vid pid d es d')
    (hes : ∀ c ∈ es.map Prod.fst, (∀ inf, c ≠ .deleteDriver inf) ∧ ∀ path, c ≠ .addDriver path) :
  d' = d
  := by
  induction h with
  | nil d => rfl
  | succeeded hwork hrest ih =>
      obtain ⟨hdelete, hadd⟩ := hes _ List.mem_cons_self
      rw [ih fun c hc => hes c (List.mem_cons_of_mem _ hc), hwork.eq_of_quiet hdelete hadd]
  | failed hlaunch hwork =>
      obtain ⟨hdelete, hadd⟩ := hes _ List.mem_cons_self
      rcases hwork with rfl | hwork
      · rfl
      · exact hwork.eq_of_quiet hdelete hadd

/-- The end of a plan neither removes nor adds a package. -/
theorem quiet_end {instanceId : List Char} {c : Command}
    (h : c ∈ (if instanceId ≠ [] then [.removeDevice instanceId] else []) ++ [.scanDevices]) :
  (∀ inf, c ≠ .deleteDriver inf) ∧ ∀ path, c ≠ .addDriver path
  := by
  split at h
  · simp only [List.cons_append, List.nil_append, List.mem_cons, List.not_mem_nil, or_false] at h
    obtain rfl | rfl := h
    · exact ⟨nofun, nofun⟩
    · exact ⟨nofun, nofun⟩
  · simp only [List.nil_append, List.mem_cons, List.not_mem_nil, or_false] at h
    obtain rfl := h
    exact ⟨nofun, nofun⟩

/-- Windows takes the whole INF when it takes a file. -/
def TakesAll (os : Answers) (vid pid : UInt16) : Prop :=
  ∀ time path n, os.writes time path = some n → (winusbInf vid pid).length ≤ n

theorem TakesAll.eq (h : TakesAll os vid pid) {text : List Char}
    (hwritten : IsWritten os vid pid text) :
  text = winusbInf vid pid
  := by
  obtain ⟨time, path, n, hwrites, rfl⟩ := hwritten
  apply List.take_of_length_le (h time path n hwrites)

theorem Works.sublist {d d' : InfDirectory} {c : Command} (h : Works os vid pid d c d')
    (hadd : ∀ path, c ≠ .addDriver path) :
  d'.files.Sublist d.files
  := by
  obtain ⟨text, -, rfl⟩ := h
  cases c with
  | deleteDriver inf => apply List.filter_sublist
  | addDriver path => exact absurd rfl (hadd path)
  | certSetup | makecat | signtool | removeDevice | scanDevices => apply List.Sublist.refl

theorem Ran.sublist {d d' : InfDirectory} {es : List (Command × Launch)}
    (h : Ran os vid pid d es d') (hadd : ∀ path, .addDriver path ∉ es.map Prod.fst) :
  d'.files.Sublist d.files
  := by
  have hne : ∀ {c launch} {es : List (Command × Launch)},
      (∀ path, Command.addDriver path ∉ ((c, launch) :: es).map Prod.fst) →
      ∀ path, c ≠ .addDriver path := by
    rintro c launch es hadd path rfl
    apply hadd path List.mem_cons_self
  induction h with
  | nil d => apply List.Sublist.refl
  | succeeded hwork hrest ih =>
      apply (ih fun path hmem => hadd path (List.mem_cons_of_mem _ hmem)).trans
      apply hwork.sublist (hne hadd)
  | failed hlaunch hwork =>
      rcases hwork with rfl | hwork
      · apply List.Sublist.refl
      · apply hwork.sublist (hne hadd)

/-- What a call can make of the files, when it ends anywhere in its plan: nothing is added, or the
INF is, when all packages for WinUSB and the device have been removed. -/
theorem files_of_begun {d d' : InfDirectory} {es : List (Command × Launch)} {enableWinusb : Bool}
    {path id : List Char} (h : Ran os vid pid d es d')
    (hplan : es.map Prod.fst <+: plan (findWinusbInfs d.files vid pid) enableWinusb path id) :
  d'.files.Sublist d.files
  ∨ ∃ name text, IsWritten os vid pid text ∧ d'.files = foreign vid pid d ++ [⟨name, some text⟩]
  := by
  by_cases hadd : ∃ path', .addDriver path' ∈ es.map Prod.fst
  · obtain ⟨path', hadd⟩ := hadd
    obtain ⟨rest, hrest⟩ := hplan
    obtain ⟨before, after, hes⟩ := List.append_of_mem hadd
    have hquiet : .addDriver path' ∉ (if id ≠ [] then [Command.removeDevice id] else [])
        ++ [.scanDevices] :=
      fun hmem => (quiet_end hmem).2 path' rfl
    have hdelete : .addDriver path'
        ∉ (findWinusbInfs d.files vid pid).map Command.deleteDriver := by
      simp
    obtain rfl : enableWinusb = true := by
      by_contra henable
      have hmem := List.mem_append_left rest hadd
      rw [hrest, plan, if_neg henable, List.nil_append, List.mem_append] at hmem
      exact hmem.elim hdelete hquiet
    rw [plan, hes, List.append_assoc, List.cons_append] at hrest
    obtain ⟨hbefore, hpath, hafter⟩ :=
      (List.append_cons_inj_of_notMem hdelete hquiet).mp hrest.symm
    obtain ⟨es₁, es₂, rfl, hes₁, hes₂⟩ := List.map_eq_append_iff.mp hes
    obtain ⟨⟨c, launch⟩, es₂, rfl, rfl, rfl⟩ := List.map_eq_cons_iff.mp hes₂
    obtain ⟨hsucceeded, d₁, hran₁, hran₂⟩ := h.split (List.cons_ne_nil _ _)
    rw [hsucceeded, hes₁, ← hbefore] at hran₁
    have hfiles := files_of_cleaned hran₁
    cases hran₂ with
    | succeeded hwork hran₂ =>
        right
        obtain ⟨text, hwritten, rfl⟩ := hwork
        refine ⟨os.naming.name (d₁.files.map InfFile.name), text, hwritten ⟨path', rfl⟩, ?_⟩
        rw [hran₂.eq_of_quiet fun c hc => quiet_end (hafter ▸ List.mem_append_left rest hc),
          ← hfiles]
        rfl
    | failed hlaunch hwork =>
        rcases hwork with rfl | ⟨text, hwritten, rfl⟩
        · left
          rw [hfiles]
          apply List.filter_sublist
        · right
          refine ⟨os.naming.name (d₁.files.map InfFile.name), text, hwritten ⟨path', rfl⟩, ?_⟩
          rw [← hfiles]
          rfl
  · left
    exact h.sublist fun path' hmem => hadd ⟨path', hmem⟩

/-- How many packages of the app there are for a device. -/
def ownPackages (vid pid : UInt16) (d : InfDirectory) : List InfFile :=
  d.files.filter (·.text = some (winusbInf vid pid))

/-- There is at most one package of the app for each device. -/
def Single (d : InfDirectory) : Prop :=
  ∀ vid pid, (ownPackages vid pid d).length ≤ 1

theorem Single.of_sublist {d d' : InfDirectory} (h : Single d) (hsub : d'.files.Sublist d.files) :
  Single d'
  := fun vid pid => (hsub.filter _).length_le.trans (h vid pid)

/-- A call leaves at most one package of the app for each device, wherever it ends. -/
theorem Single.setDongleWinusb (devs : List DeviceNode) (enableWinusb : Bool) {w : Windows}
    (h : Single w.dir) (hlists : os.lists w.time = true) (htakes : TakesAll os vid pid) :
  Single (setDongleWinusb os devs vid pid enableWinusb w).2.dir
  := by
  obtain ⟨path, es, -, hran, hplan, -⟩ := @ended_setDongleWinusb os vid pid devs enableWinusb w
  rw [listed, if_pos hlists] at hplan
  rcases files_of_begun hran hplan with hsub | ⟨name, text, hwritten, hfiles⟩
  · apply h.of_sublist hsub
  · obtain rfl := htakes.eq hwritten
    intro vid' pid'
    have hforeign : ((foreign vid pid w.dir).filter
        (·.text = some (winusbInf vid' pid'))).length ≤ (ownPackages vid' pid' w.dir).length :=
      (List.filter_sublist.filter _).length_le
    rw [ownPackages, hfiles, List.filter_append, List.length_append]
    by_cases hsame : vid' = vid ∧ pid' = pid
    · -- the packages of others are none of the app's for this device
      obtain ⟨rfl, rfl⟩ := hsame
      have hnone : (foreign vid' pid' w.dir).filter (·.text = some (winusbInf vid' pid')) = [] := by
        rw [List.filter_eq_nil_iff]
        intro f hf htext
        have hwinusb := (List.mem_filter.mp hf).2
        have hfound := (isWinusbText_winusbInf vid' pid' vid' pid').mpr ⟨rfl, rfl⟩
        rw [InfFile.isWinusb, of_decide_eq_true htext, Option.any_some, hfound] at hwinusb
        contradiction
      rw [hnone, List.length_nil, Nat.zero_add]
      apply List.length_filter_le
    · -- the INF that is added is not the one of another device
      have hother : [(⟨name, some (winusbInf vid pid)⟩ : InfFile)].filter
          (·.text = some (winusbInf vid' pid')) = [] := by
        rw [List.filter_eq_nil_iff]
        intro f hf htext
        obtain rfl := List.mem_singleton.mp hf
        have hfound := (isWinusbText_winusbInf vid' pid' vid' pid').mpr ⟨rfl, rfl⟩
        rw [← Option.some.inj (of_decide_eq_true htext), isWinusbText_winusbInf] at hfound
        apply hsame hfound
      rw [hother, List.length_nil, Nat.add_zero]
      apply hforeign.trans (h vid' pid')

end Ssc.Driver
