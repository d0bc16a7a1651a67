import Mathlib
import SscOnWindows.Driver.Switch

/-!
# The plan of a call

The commands of `pnputil` that a call of `set_dongle_winusb` is to run are its plan.  A call runs
the first ones of them, up to one that has failed; the other programs that it runs change neither
the INF files nor the log.  This is said for each function of the call by a triple over the state of
Windows, and for the call by what its report means.
-/

namespace Ssc.Driver

open Std.Do TextSearch

set_option mvcgen.warning false

variable (os : Answers)

/-! ### Commands -/

/-- What a program says begins with a cancelled elevation when that was its end. -/
theorem isPrefixOf_launchError {c : Command} (hc : c.isPnputil = true) {launch : Launch}
    {err : List Char} (h : launchError c launch = some err) :
  (chars "Elevation cancelled").isPrefixOf err = true ↔ launch = .notLaunched errorCancelled
  := by
  have helevated : c.elevated = true := by
    cases c <;> first | rfl | contradiction
  have hfile : c.file = chars "pnputil.exe" := by
    cases c <;> first | rfl | contradiction
  cases launch with
  | notLaunched error =>
      obtain rfl := Option.some.inj h
      rw [helevated, hfile]
      by_cases herror : error = errorCancelled
      · rw [if_pos ⟨rfl, herror⟩, herror]
        decide
      · rw [if_neg (fun h => herror h.2), Launch.notLaunched.injEq]
        simp [chars, snprintf, herror]
  | exited code =>
      obtain ⟨-, h⟩ := Option.ite_none_right_eq_some.mp h
      obtain rfl := Option.some.inj h
      rw [hfile]
      simp [chars, snprintf]

theorem launchError_eq_none {c : Command} {launch : Launch} :
  launchError c launch = none ↔ launch = .exited 0
  := by
  cases launch <;> simp [launchError]

variable (vid pid : UInt16)

/-- The text is as much of the INF as a file has taken. -/
def IsWritten (text : List Char) : Prop :=
  ∃ time path n, os.writes time path = some n ∧ text = (winusbInf vid pid).take n

/-- What the work of a command can make of the INF files. -/
def Works (d : InfDirectory) (c : Command) (d' : InfDirectory) : Prop :=
  ∃ text, ((∃ path, c = .addDriver path) → IsWritten os vid pid text)
    ∧ d' = d.after os.naming text c

/-- Commands have been run one after the other, up to the first one that has failed. -/
inductive Ran : InfDirectory → List (Command × Launch) → InfDirectory → Prop
  | nil (d : InfDirectory) : Ran d [] d
  | succeeded {d d₁ d₂ : InfDirectory} {c : Command} {es : List (Command × Launch)}
      (hwork : Works os vid pid d c d₁) (hrest : Ran d₁ es d₂) :
      Ran d ((c, .exited 0) :: es) d₂
  | failed {d d₁ : InfDirectory} {c : Command} {launch : Launch} (hlaunch : launch ≠ .exited 0)
      (hwork : d₁ = d ∨ Works os vid pid d c d₁) : Ran d [(c, launch)] d₁

/-- Commands that have succeeded. -/
def succeeded (cs : List Command) : List (Command × Launch) :=
  cs.map fun c => (c, .exited 0)

variable {os vid pid}

/-- The first one of some commands that have succeeded. -/
theorem ran_succeeded_cons {d d₂ : InfDirectory} {c : Command} {cs : List Command}
    (h : Ran os vid pid d (succeeded (c :: cs)) d₂) :
  ∃ d₁, Works os vid pid d c d₁ ∧ Ran os vid pid d₁ (succeeded cs) d₂
  := by
  generalize hes : succeeded (c :: cs) = es at h
  cases h with
  | nil => contradiction
  | succeeded hwork hrest =>
      obtain ⟨hc, rfl⟩ := List.cons.inj hes
      obtain rfl := congrArg Prod.fst hc
      exact ⟨_, hwork, hrest⟩
  | failed hlaunch =>
      obtain ⟨hc, -⟩ := List.cons.inj hes
      exact absurd (congrArg Prod.snd hc).symm hlaunch

/-- One more run after commands that have succeeded. -/
theorem Ran.append {d d₁ d₂ : InfDirectory} {cs : List Command} {es : List (Command × Launch)}
    (h : Ran os vid pid d (Driver.succeeded cs) d₁) (hes : Ran os vid pid d₁ es d₂) :
  Ran os vid pid d (Driver.succeeded cs ++ es) d₂
  := by
  induction cs generalizing d with
  | nil =>
      cases h
      apply hes
  | cons c cs ih =>
      obtain ⟨d', hwork, hrest⟩ := ran_succeeded_cons h
      exact Ran.succeeded hwork (ih hrest)

variable (os vid pid)

/-- The commands `cs` have succeeded, from the files `d` and the log `l` on. -/
def Done (d : InfDirectory) (l : List (Command × Launch)) (cs : List Command) (w : Windows) :
    Prop :=
  Ran os vid pid d (succeeded cs) w.dir ∧ w.log = l ++ succeeded cs

/-- How a call ends whose plan are the commands `cs`: the commands run are the first ones of the
plan, up to one that has failed; the report is a success when there is none, and a cancelled
elevation when that is why the last one has failed. -/
def Ended (d : InfDirectory) (l : List (Command × Launch)) (cs : List Command)
    (rep : DongleSwitchReport) (w : Windows) : Prop :=
  ∃ es, w.log = l ++ es ∧ Ran os vid pid d es w.dir ∧ es.map Prod.fst <+: cs
    ∧ (rep.result = .ok ↔ es = succeeded cs)
    ∧ (rep.result = .elevationCancelled ↔ ∃ c, (c, .notLaunched errorCancelled) ∈ es)

/-- The commands of `pnputil` that a call is to run. -/
def plan (infs : List (List Char)) (enableWinusb : Bool) (infPath instanceId : List Char) :
    List Command :=
  infs.map .deleteDriver ++ ((if enableWinusb then [.addDriver infPath] else [])
    ++ ((if instanceId ≠ [] then [.removeDevice instanceId] else []) ++ [.scanDevices]))

variable {os vid pid}
variable {d : InfDirectory} {l : List (Command × Launch)} {cs : List Command}

theorem map_fst_succeeded (cs : List Command) :
  (succeeded cs).map Prod.fst = cs
  := by
  rw [succeeded, List.map_map]
  exact List.map_id cs

theorem succeeded_append (cs cs' : List Command) :
  succeeded (cs ++ cs') = succeeded cs ++ succeeded cs'
  := List.map_append

theorem succeeded_inj {cs cs' : List Command} (h : succeeded cs = succeeded cs') :
  cs = cs'
  := by
  rw [← map_fst_succeeded cs, h, map_fst_succeeded]

/-- A call that ends before a command of its plan. -/
theorem Done.ended {w : Windows} (h : Done os vid pid d l cs w) {c : Command} {p : List Command}
    (hplan : cs ++ [c] <+: p) {rep : DongleSwitchReport} (hrep : rep.result ≠ .ok)
    (hcancelled : rep.result ≠ .elevationCancelled) :
  Ended os vid pid d l p rep w
  := by
  refine ⟨_, h.2, h.1, ?_, ?_, ?_⟩
  · rw [map_fst_succeeded]
    apply (List.prefix_append cs [c]).trans hplan
  · apply iff_of_false hrep
    intro hes
    have hlength := hplan.length_le
    rw [succeeded_inj hes, List.length_append, List.length_singleton] at hlength
    omega
  · apply iff_of_false hcancelled
    rintro ⟨c, hc⟩
    simp [succeeded] at hc

/-- A call that has run its plan. -/
theorem Done.ended_ok {w : Windows} (h : Done os vid pid d l cs w) {message : List Char} :
  Ended os vid pid d l cs ⟨.ok, message⟩ w
  := by
  refine ⟨_, h.2, h.1, ?_, ?_, ?_⟩
  · rw [map_fst_succeeded]
  · exact iff_of_true rfl rfl
  · apply iff_of_false (by nofun)
    rintro ⟨c, hc⟩
    simp [succeeded] at hc

/-- A command has done its work when it has succeeded, and may have when it has not. -/
theorem works_ran {w : Windows} {c : Command}
    (h : (∃ path, c = .addDriver path) → IsWritten os vid pid w.tempInf) (launch : Launch)
    (doesWork : Bool) :
  Works os vid pid w.dir c (w.ran os c launch doesWork).dir
  ∨ launch ≠ .exited 0 ∧ (w.ran os c launch doesWork).dir = w.dir
  := by
  rw [Windows.ran]
  by_cases hworks : launch.works doesWork = true
  · left
    simp only [hworks, if_true]
    exact ⟨w.tempInf, h, rfl⟩
  · right
    simp only [hworks]
    constructor
    · rintro rfl
      apply hworks
      simp [Launch.works]
    · rfl

theorem runOk_spec {c : Command} (hc : c.isPnputil = true) {p : List Command}
    (hplan : cs ++ [c] <+: p) :
  ⦃fun w => ⌜Done os vid pid d l cs w
    ∧ ((∃ path, c = .addDriver path) → IsWritten os vid pid w.tempInf)⌝⦄
  runOk os c
  ⦃post⟨fun _ w => ⌜Done os vid pid d l (cs ++ [c]) w⌝,
    fun rep w => ⌜Ended os vid pid d l p rep w⌝⟩⦄
  := by
  mvcgen [runOk, runProgram, tick]
  next s h now w' err herror =>
    obtain ⟨⟨hran, hlog⟩, hwritten⟩ := h
    have hne : os.launches s.time c ≠ .exited 0 := by
      rw [ne_eq, ← launchError_eq_none, herror]
      nofun
    have hwork := works_ran (w := now.2) hwritten (os.launches s.time c) (os.doesWork s.time c)
    refine ⟨succeeded cs ++ [(c, os.launches s.time c)], ?_, hran.append (.failed hne ?_),
      ?_, ?_, ?_⟩
    · simp [w', now, Windows.ran, hc, hlog]
    · rcases hwork with hwork | ⟨-, hdir⟩
      · exact Or.inr hwork
      · exact Or.inl hdir
    · rw [List.map_append, map_fst_succeeded]
      apply hplan
    · apply iff_of_false
      · split <;> nofun
      · intro hes
        have hmem : (c, os.launches s.time c) ∈ succeeded p := by
          rw [← hes]
          simp
        obtain ⟨c', -, hc'⟩ := List.mem_map.mp hmem
        apply hne (congrArg Prod.snd hc').symm
    · have hcancelled := isPrefixOf_launchError hc herror
      have hlast : (∃ c', (c', .notLaunched errorCancelled)
          ∈ succeeded cs ++ [(c, os.launches s.time c)])
            ↔ os.launches s.time c = .notLaunched errorCancelled := by
        simp [succeeded, eq_comm]
      rw [hlast, ← hcancelled]
      simp
  next s h now w' herror =>
    obtain ⟨⟨hran, hlog⟩, hwritten⟩ := h
    have hlaunch : os.launches s.time c = .exited 0 := launchError_eq_none.mp herror
    rw [Done, succeeded_append]
    constructor
    · rcases works_ran (w := now.2) hwritten (os.launches s.time c) (os.doesWork s.time c) with
        hwork | ⟨hne, -⟩
      · exact hran.append (.succeeded hwork (.nil _))
      · contradiction
    · simp [w', now, Windows.ran, hc, hlog, hlaunch, succeeded]

/-- A command that is not one of `pnputil` leaves the INF files and is not in the log. -/
theorem ran_of_not_pnputil {w : Windows} {c : Command} (hc : c.isPnputil = false)
    (launch : Launch) (doesWork : Bool) :
  w.ran os c launch doesWork = w
  := by
  have hafter : w.dir.after os.naming w.tempInf c = w.dir := by
    cases c <;> first | rfl | contradiction
  rw [Windows.ran, hafter, hc]
  simp

/-- What the functions that prepare a package keep. -/
def Same (w₀ w : Windows) : Prop :=
  w.dir = w₀.dir ∧ w.log = w₀.log ∧ w.tempInf = w₀.tempInf

@[spec]
theorem runProgram_spec {c : Command} (hc : c.isPnputil = false) (w₀ : Windows) :
  ⦃fun w => ⌜Same w₀ w⌝⦄ runProgram os c ⦃post⟨fun _ w => ⌜Same w₀ w⌝, fun _ w => ⌜Same w₀ w⌝⟩⦄
  := by
  mvcgen [runProgram, tick]
  next s h now w' err herror =>
    simp only [w', ran_of_not_pnputil hc]
    exact h
  next s h now w' herror =>
    simp only [w', ran_of_not_pnputil hc]
    exact h

@[spec]
theorem writeFile_spec (path : List Char) (w₀ : Windows) :
  ⦃fun w => ⌜Same w₀ w⌝⦄ writeFile os path
  ⦃post⟨fun n w => ⌜Same w₀ w ∧ ∃ time, os.writes time path = some n⌝, fun _ w => ⌜Same w₀ w⌝⟩⦄
  := by
  mvcgen [writeFile, tick]
  next s h now n hwrites => exact ⟨h, _, hwrites⟩

@[spec]
theorem localAppData_spec (w₀ : Windows) :
  ⦃fun w => ⌜Same w₀ w⌝⦄ localAppData os ⦃⇓ _ w => ⌜Same w₀ w⌝⦄
  := by
  mvcgen [localAppData, tick]

@[spec]
theorem ensureSigningPfx_spec (w₀ : Windows) :
  ⦃fun w => ⌜Same w₀ w⌝⦄ ensureSigningPfx os
  ⦃post⟨fun _ w => ⌜Same w₀ w⌝, fun _ w => ⌜Same w₀ w⌝⟩⦄
  := by
  mvcgen [ensureSigningPfx, tick]
  all_goals grind [Same, Command.isPnputil]

@[spec]
theorem writeWinusbInf_spec (path : List Char) (w₀ : Windows) :
  ⦃fun w => ⌜Same w₀ w⌝⦄ writeWinusbInf os path vid pid
  ⦃post⟨fun _ w => ⌜w.dir = w₀.dir ∧ w.log = w₀.log ∧ IsWritten os vid pid w.tempInf⌝,
    fun _ w => ⌜Same w₀ w⌝⟩⦄
  := by
  mvcgen [writeWinusbInf]
  next s h n s' h' w' =>
    obtain ⟨⟨hdir, hlog, -⟩, time, hwrites⟩ := h'
    exact ⟨hdir.trans h.1, hlog.trans h.2.1, time, path, n, hwrites, rfl⟩
  all_goals grind [Same]

@[spec]
theorem makeCatalog_spec (ddfPath resultDir : List Char) (w₀ : Windows) :
  ⦃fun w => ⌜Same w₀ w⌝⦄ makeCatalog os ddfPath resultDir
  ⦃post⟨fun _ w => ⌜Same w₀ w⌝, fun _ w => ⌜Same w₀ w⌝⟩⦄
  := by
  mvcgen [makeCatalog, tick]
  all_goals grind [Same, Command.isPnputil]

@[spec]
theorem signCatalog_spec (catPath pfx : List Char) (w₀ : Windows) :
  ⦃fun w => ⌜Same w₀ w⌝⦄ signCatalog os catPath pfx
  ⦃post⟨fun _ w => ⌜Same w₀ w⌝, fun _ w => ⌜Same w₀ w⌝⟩⦄
  := by
  mvcgen [signCatalog, tick]

/-- The package is prepared without a command of `pnputil`, and then it is added. -/
theorem installWinusbPackage_spec {p : List Char → List Command}
    (hplan : ∀ path, cs ++ [.addDriver path] <+: p path) :
  ⦃fun w => ⌜Done os vid pid d l cs w⌝⦄ installWinusbPackage os vid pid
  ⦃post⟨fun _ w => ⌜∃ path, Done os vid pid d l (cs ++ [.addDriver path]) w⌝,
    fun rep w => ⌜∃ path, Ended os vid pid d l (p path) rep w⌝⟩⦄
  := by
  have hadd : ∀ path,
      ⦃fun w => ⌜Done os vid pid d l cs w
        ∧ ((∃ path', Command.addDriver path = .addDriver path') → IsWritten os vid pid w.tempInf)⌝⦄
      runOk os (.addDriver path)
      ⦃post⟨fun _ w => ⌜Done os vid pid d l (cs ++ [.addDriver path]) w⌝,
        fun rep w => ⌜Ended os vid pid d l (p path) rep w⌝⟩⦄ :=
    fun path => runOk_spec rfl (hplan path)
  have hfails : ∀ w result message, Done os vid pid d l cs w → result ≠ .ok →
      result ≠ .elevationCancelled → Ended os vid pid d l (p []) ⟨result, message⟩ w :=
    fun w result message h hok hcancelled =>
      h.ended (hplan []) hok hcancelled
  mvcgen [installWinusbPackage, tick, hadd]
  all_goals grind [Same, Done]

/-- The packages that a call is to remove. -/
def listed (os : Answers) (vid pid : UInt16) (w : Windows) : List (List Char) :=
  if os.lists w.time then findWinusbInfs w.dir.files vid pid else []

@[spec]
theorem findInfs_spec (w₀ : Windows) :
  ⦃fun w => ⌜w = w₀⌝⦄ findInfs os vid pid
  ⦃⇓ infs w => ⌜infs = listed os vid pid w₀ ∧ Done os vid pid w₀.dir w₀.log [] w⌝⦄
  := by
  mvcgen [findInfs, tick]
  next w now w' =>
    obtain rfl := now
    exact ⟨rfl, Ran.nil _, (List.append_nil _).symm⟩

/-- A command other than the one that adds a package. -/
theorem runOk_done {c : Command} (hc : c.isPnputil = true) (hadd : ∀ path, c ≠ .addDriver path)
    {p : List Command} (hplan : cs ++ [c] <+: p) :
  ⦃fun w => ⌜Done os vid pid d l cs w⌝⦄ runOk os c
  ⦃post⟨fun _ w => ⌜Done os vid pid d l (cs ++ [c]) w⌝,
    fun rep w => ⌜Ended os vid pid d l p rep w⌝⟩⦄
  := by
  have hrun := @runOk_spec os vid pid d l cs c hc p hplan
  mvcgen [hrun]
  next w h =>
    refine ⟨h, ?_⟩
    rintro ⟨path, hpath⟩
    exact absurd hpath (hadd path)

theorem deleteDrivers_spec (infs : List (List Char)) {p : List Command}
    (hplan : cs ++ infs.map .deleteDriver <+: p) :
  ⦃fun w => ⌜Done os vid pid d l cs w⌝⦄ deleteDrivers os infs
  ⦃post⟨fun _ w => ⌜Done os vid pid d l (cs ++ infs.map .deleteDriver) w⌝,
    fun rep w => ⌜Ended os vid pid d l p rep w⌝⟩⦄
  := by
  induction infs generalizing cs with
  | nil =>
      mvcgen [deleteDrivers]
      simpa using ‹_›
  | cons inf infs ih =>
      have hcs : cs ++ (inf :: infs).map .deleteDriver
          = (cs ++ [.deleteDriver inf]) ++ infs.map .deleteDriver := by
        simp
      rw [hcs] at hplan ⊢
      have hrun := @runOk_done os vid pid d l cs (.deleteDriver inf) rfl nofun p
        ((List.prefix_append _ _).trans hplan)
      have hrest := ih hplan
      mvcgen [deleteDrivers, hrun, hrest]

theorem reevaluate_spec (instanceId : List Char) {p : List Command}
    (hplan : cs ++ ((if instanceId ≠ [] then [.removeDevice instanceId] else [])
      ++ [.scanDevices]) <+: p) :
  ⦃fun w => ⌜Done os vid pid d l cs w⌝⦄ reevaluate os instanceId
  ⦃post⟨fun _ w => ⌜Done os vid pid d l (cs ++ ((if instanceId ≠ [] then [.removeDevice instanceId]
      else []) ++ [.scanDevices])) w⌝,
    fun rep w => ⌜Ended os vid pid d l p rep w⌝⟩⦄
  := by
  rw [← List.append_assoc] at hplan ⊢
  have hscan := @runOk_done os vid pid d l _ .scanDevices rfl nofun p hplan
  by_cases hne : instanceId ≠ []
  · rw [if_pos hne] at hplan hscan ⊢
    have hremove := @runOk_done os vid pid d l cs (.removeDevice instanceId) rfl nofun p
      ((List.prefix_append _ _).trans hplan)
    mvcgen [reevaluate, hremove, hscan]
  · rw [if_neg hne, List.append_nil] at hscan ⊢
    mvcgen [reevaluate, hscan]

/-- What a program starts from may depend on what is only known to exist. -/
theorem triple_exists {ε α : Type} {ι : Sort*} {P : ι → Windows → Prop} {x : Fallible ε α}
    {Q : PostCond α (.except ε (.arg Windows .pure))} (h : ∀ i, ⦃fun w => ⌜P i w⌝⦄ x ⦃Q⦄) :
  ⦃fun w => ⌜∃ i, P i w⌝⦄ x ⦃Q⦄
  := by
  rw [Triple.iff]
  rintro w ⟨i, hi⟩
  exact Triple.iff.mp (h i) w hi

theorem cleanStore_spec (w₀ : Windows) {p : List Command}
    (hplan : (listed os vid pid w₀).map .deleteDriver <+: p) :
  ⦃fun w => ⌜w = w₀⌝⦄ cleanStore os vid pid
  ⦃post⟨fun _ w => ⌜Done os vid pid w₀.dir w₀.log ((listed os vid pid w₀).map .deleteDriver) w⌝,
    fun rep w => ⌜Ended os vid pid w₀.dir w₀.log p rep w⌝⟩⦄
  := by
  have hdelete : ∀ infs,
      ⦃fun w => ⌜∃ _ : infs = listed os vid pid w₀, Done os vid pid w₀.dir w₀.log [] w⌝⦄
      deleteDrivers os infs
      ⦃post⟨fun _ w => ⌜Done os vid pid w₀.dir w₀.log ((listed os vid pid w₀).map .deleteDriver) w⌝,
        fun rep w => ⌜Ended os vid pid w₀.dir w₀.log p rep w⌝⟩⦄ := by
    intro infs
    apply triple_exists
    rintro rfl
    exact @deleteDrivers_spec os vid pid w₀.dir w₀.log [] _ p hplan
  mvcgen [cleanStore, hdelete]
  next w hw infs w' h =>
    obtain rfl := hw
    exact ⟨h.1, h.2⟩

/-- A call runs the commands of its plan. -/
theorem switchDongle_spec (devs : List DeviceNode) (enableWinusb : Bool) (w₀ : Windows) :
  ⦃fun w => ⌜w = w₀⌝⦄ switchDongle os devs vid pid enableWinusb
  ⦃post⟨fun rep w => ⌜∃ path, Ended os vid pid w₀.dir w₀.log (plan (listed os vid pid w₀)
      enableWinusb path (detectDongleDriver devs vid pid).instanceId) rep w⌝,
    fun rep w => ⌜∃ path, Ended os vid pid w₀.dir w₀.log (plan (listed os vid pid w₀)
      enableWinusb path (detectDongleDriver devs vid pid).instanceId) rep w⌝⟩⦄
  := by
  simp only [switchDongle]
  generalize (detectDongleDriver devs vid pid).instanceId = id
  have hstart : ∀ w result message, w = w₀ → result ≠ .ok → result ≠ .elevationCancelled →
      Ended os vid pid w₀.dir w₀.log (plan (listed os vid pid w₀) enableWinusb [] id)
        ⟨result, message⟩ w := by
    rintro w result message rfl hok hcancelled
    have hdone : Done os vid pid w.dir w.log [] w := ⟨Ran.nil _, (List.append_nil _).symm⟩
    obtain ⟨c, hc⟩ : ∃ c, [c] <+: plan (listed os vid pid w) enableWinusb [] id := by
      obtain ⟨c, cs, hcs⟩ := List.exists_cons_of_ne_nil
        (show plan (listed os vid pid w) enableWinusb [] id ≠ [] by simp [plan])
      rw [hcs]
      exact ⟨c, by simp⟩
    exact hdone.ended hc hok hcancelled
  have hclean := @cleanStore_spec os vid pid w₀ (plan (listed os vid pid w₀) enableWinusb [] id)
    (List.prefix_append _ _)
  have hinstall := @installWinusbPackage_spec os vid pid w₀.dir w₀.log
    ((listed os vid pid w₀).map .deleteDriver)
    (fun path => plan (listed os vid pid w₀) true path id)
    (fun path => by
      rw [plan, ← List.append_assoc]
      apply List.prefix_append)
  have hlast : ⦃fun w => ⌜∃ path, Done os vid pid w₀.dir w₀.log
        ((listed os vid pid w₀).map .deleteDriver
          ++ (if enableWinusb then [.addDriver path] else [])) w⌝⦄
      reevaluate os id
      ⦃post⟨fun _ w => ⌜∃ path, Done os vid pid w₀.dir w₀.log
          (plan (listed os vid pid w₀) enableWinusb path id) w⌝,
        fun rep w => ⌜∃ path, Ended os vid pid w₀.dir w₀.log
          (plan (listed os vid pid w₀) enableWinusb path id) rep w⌝⟩⦄ := by
    apply triple_exists
    intro path
    have hplan : plan (listed os vid pid w₀) enableWinusb path id
        = (listed os vid pid w₀).map .deleteDriver
          ++ (if enableWinusb then [.addDriver path] else [])
          ++ ((if id ≠ [] then [.removeDevice id] else []) ++ [.scanDevices]) := by
      rw [plan, List.append_assoc]
    have h := @reevaluate_spec os vid pid w₀.dir w₀.log _ id _
      (hplan ▸ List.prefix_refl (plan (listed os vid pid w₀) enableWinusb path id))
    rw [← hplan] at h
    mvcgen [h]
    · intro hdone
      exact ⟨path, hdone⟩
    · intro hended
      exact ⟨path, hended⟩
  have hok : ∀ w path message,
      Done os vid pid w₀.dir w₀.log (plan (listed os vid pid w₀) enableWinusb path id) w →
      Ended os vid pid w₀.dir w₀.log (plan (listed os vid pid w₀) enableWinusb path id)
        ⟨.ok, message⟩ w :=
    fun w path message hdone => hdone.ended_ok
  cases enableWinusb with
  | false =>
      simp only [Bool.false_eq_true, if_false, List.append_nil, exists_const] at hlast
      mvcgen [hclean, hlast]
      all_goals grind
  | true =>
      mvcgen [hclean, hinstall, hlast]
      all_goals grind

/-- What is proved of a program holds of its run. -/
theorem run_of_triple {ε α : Type} {P : Windows → Prop} {Q : α → Windows → Prop}
    {E : ε → Windows → Prop} {x : Fallible ε α}
    (h : ⦃fun w => ⌜P w⌝⦄ x ⦃post⟨fun a w => ⌜Q a w⌝, fun e w => ⌜E e w⌝⟩⦄) {w : Windows}
    (hw : P w) :
  (∀ a w', x.run.run w = (.ok a, w') → Q a w') ∧ ∀ e w', x.run.run w = (.error e, w') → E e w'
  := by
  have h := Triple.iff.mp h w hw
  simp only [WP.wp, PredTrans.apply_pushExcept, PredTrans.apply_pushArg,
    PredTrans.apply_Pure_pure] at h
  constructor
  · intro a w' hrun
    rw [hrun] at h
    exact h
  · intro e w' hrun
    rw [hrun] at h
    exact h

/-- A call of `set_dongle_winusb` runs the commands of its plan. -/
theorem ended_setDongleWinusb (devs : List DeviceNode) (enableWinusb : Bool) (w : Windows) :
  ∃ path, Ended os vid pid w.dir w.log (plan (listed os vid pid w) enableWinusb path
      (detectDongleDriver devs vid pid).instanceId)
    (setDongleWinusb os devs vid pid enableWinusb w).1
    (setDongleWinusb os devs vid pid enableWinusb w).2
  := by
  obtain ⟨hok, herror⟩ := run_of_triple (@switchDongle_spec os vid pid devs enableWinusb w) rfl
  rw [setDongleWinusb]
  split
  next rep w' hrun => apply hok rep w' hrun
  next rep w' hrun => apply herror rep w' hrun

/-- The commands but the last one have succeeded. -/
theorem Ran.dropLast_succeeded {d d' : InfDirectory} {es : List (Command × Launch)}
    (h : Ran os vid pid d es d') {e : Command × Launch} (he : e ∈ es.dropLast) :
  e.2 = .exited 0
  := by
  induction h with
  | nil d => contradiction
  | @succeeded d d₁ d₂ c es hwork hrest ih =>
      cases es with
      | nil => contradiction
      | cons e' es =>
          rw [List.dropLast_cons_cons, List.mem_cons] at he
          rcases he with rfl | he
          · rfl
          · apply ih he
  | failed => contradiction

/-- What a call reports: it runs the commands of its plan in their order, as long as they succeed;
it reports a success when it has run all of them with success, and only then, and a cancelled
elevation when the last one was not launched for that reason, and only then. -/
theorem report_setDongleWinusb (devs : List DeviceNode) (enableWinusb : Bool) (w : Windows) :
  ∃ path es, (setDongleWinusb os devs vid pid enableWinusb w).2.log = w.log ++ es
    ∧ es.map Prod.fst <+: plan (listed os vid pid w) enableWinusb path
        (detectDongleDriver devs vid pid).instanceId
    ∧ (∀ e ∈ es.dropLast, e.2 = .exited 0)
    ∧ ((setDongleWinusb os devs vid pid enableWinusb w).1.result = .ok
      ↔ es = succeeded (plan (listed os vid pid w) enableWinusb path
          (detectDongleDriver devs vid pid).instanceId))
    ∧ ((setDongleWinusb os devs vid pid enableWinusb w).1.result = .elevationCancelled
      ↔ ∃ c, es.getLast? = some (c, .notLaunched errorCancelled))
  := by
  obtain ⟨path, es, hlog, hran, hplan, hok, hcancelled⟩ :=
    @ended_setDongleWinusb os vid pid devs enableWinusb w
  refine ⟨path, es, hlog, hplan, fun e he => hran.dropLast_succeeded he, hok, ?_⟩
  rw [hcancelled]
  apply exists_congr
  intro c
  constructor
  · intro hmem
    have hne := List.ne_nil_of_mem hmem
    rw [← List.dropLast_concat_getLast hne, List.mem_append, List.mem_singleton] at hmem
    rcases hmem with hmem | hmem
    · have hsucceeded := hran.dropLast_succeeded hmem
      contradiction
    · rw [List.getLast?_eq_some_getLast hne, hmem]
  · apply List.mem_of_getLast?

end Ssc.Driver
