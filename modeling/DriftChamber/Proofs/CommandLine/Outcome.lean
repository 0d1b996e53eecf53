/-
# What the program leaves behind

The program reaches its files in any world that a state stands for.  Its runs begin exactly if the
scenario is known, the setup loads, and an export, if one is asked for, is of a single scenario
(`Options.Begins`).  They are executed if moreover there is room for their events and the export was
written (`Options.Executes`).  Then the exit code tells whether all of them passed, and the summary
counts them.  Otherwise nothing is printed, and the code is 101 if the runs broke off for want of
room, or else 1 (`Host.run_outcome`).

All cases meet in the ending of the program, which is told apart once (`Options.ending_cases`).
-/
import DriftChamber.CommandLine.Program
import DriftChamber.Proofs.Json.Encoded
import DriftChamber.Proofs.Setup.Usable

namespace DriftChamber

variable {σ : Type}

/-- What the program leaves behind in a world. -/
def Host.outcome (host : Host (StateM σ)) (arguments : List String) (w : σ) : Outcome :=
  ((host.run arguments).run w).1

/-! ## Executed runs -/

namespace Options

/-- The scenarios that are asked for by a known name. -/
inductive Asks (o : Options) : List Scenario → Prop where
  /-- All of them. -/
  | all (h : o.scenario = "all") : Asks o Scenario.all
  /-- A single one. -/
  | single {s : Scenario} (h : Scenario.ofName? o.scenario = some s) : Asks o [s]

/-- The setup that is asked for loads, and the world after that. -/
inductive Loads (o : Options) (host : Host (StateM σ)) (w : σ) : Setup → σ → Prop where
  /-- There is no file, and the usual setup is taken. -/
  | standard (h : o.configFile = none) : Loads o host w Setup.standard w
  /-- The content of the file is a setup. -/
  | file {path : String} {setup : Setup} (hpath : o.configFile = some path)
      (hload : Setup.ofFile? ((host.load path).run w).1 = .ok setup) :
      Loads o host w setup ((host.load path).run w).2

/-- What is to be exported of the runs is written. -/
inductive Writes (o : Options) (host : Host (StateM σ)) (w : σ) (runner : Runner) :
    List Scenario → Prop where
  /-- There is nothing to export. -/
  | nothing {scenarios : List Scenario} (h : o.exportFile = none) : Writes o host w runner scenarios
  /-- The export of a single scenario was written. -/
  | file {path : String} {s : Scenario} (hpath : o.exportFile = some path)
      (hsave : ((host.save path (runner.runWithExport s).2.toText).run w).1 = .ok ()) :
      Writes o host w runner [s]

/-- What scenarios are run with. -/
def runner (o : Options) (setup : Setup) : Runner := ⟨o.seed, o.events.toNat, setup⟩

/-- The runs of these scenarios over this setup begin. -/
structure Begins (o : Options) (host : Host (StateM σ)) (w : σ) (scenarios : List Scenario)
    (setup : Setup) (after : σ) : Prop where
  /-- The scenarios are known. -/
  asks : o.Asks scenarios
  /-- The setup loads. -/
  loads : o.Loads host w setup after
  /-- There is a single scenario if there is to be an export. -/
  single : o.exportFile.isSome = true → ∃ s, scenarios = [s]

/-- The runs of these scenarios over this setup are executed, and exported where that is asked
for. -/
structure Executes (o : Options) (host : Host (StateM σ)) (w : σ) (scenarios : List Scenario)
    (setup : Setup) (after : σ) : Prop extends o.Begins host w scenarios setup after where
  /-- There is room for the events. -/
  hasRoom : (o.runner setup).HasRoom
  /-- The export is written. -/
  writes : o.Writes host after (o.runner setup) scenarios

/-! ## The plan -/

variable {o : Options} {host : Host (StateM σ)} {w : σ}

theorem asks_iff {scenarios : List Scenario} :
    o.Asks scenarios ↔ o.scenarios? = .ok scenarios := by
  rw [scenarios?]
  by_cases hall : o.scenario = "all"
  · rw [if_pos hall, Except.ok.injEq]
    constructor
    · rintro (- | hname)
      · rfl
      · rw [hall, show Scenario.ofName? "all" = none by decide +kernel] at hname
        cases hname
    · rintro rfl
      exact .all hall
  · rw [if_neg hall]
    cases hname : Scenario.ofName? o.scenario with
    | none =>
        refine iff_of_false ?_ (by simp)
        rintro (h | h)
        · exact hall h
        · rw [hname] at h
          cases h
    | some s =>
        constructor
        · rintro (h | h)
          · exact absurd h hall
          · rw [hname] at h
            cases h
            rfl
        · intro h
          cases h
          exact .single hname

/-- A step that can fail, and then the next one, in a world. -/
theorem run_bind {ε α β : Type} (x : ExceptT ε (StateM σ) α) (f : α → ExceptT ε (StateM σ) β)
    (w : σ) :
    (x >>= f).run.run w =
      match x.run.run w with
      | (.ok a, after) => (f a).run.run after
      | (.error e, after) => (.error e, after) := by
  rw [ExceptT.run_bind, StateT.run_bind]
  rcases x.run.run w with ⟨_ | a, after⟩ <;> rfl

theorem run_setup?_of_file {path : String} (hpath : o.configFile = some path) :
    (o.setup? host).run.run w =
      ((Setup.ofFile? ((host.load path).run w).1).mapError (Refusal.setup path),
        ((host.load path).run w).2) := by
  have hload : (monadLift (host.load path) : ExceptT Refusal (StateM σ) _).run.run w =
      (.ok ((host.load path).run w).1, ((host.load path).run w).2) := rfl
  unfold setup?
  rw [hpath]
  show (monadLift (host.load path) >>= _ : ExceptT Refusal (StateM σ) Setup).run.run w = _
  rw [run_bind, hload]
  cases hsetup : Setup.ofFile? ((host.load path).run w).1 with
  | ok setup =>
      simp only [hsetup]
      rfl
  | error e =>
      simp only [hsetup]
      rfl

theorem loads_iff {setup : Setup} {after : σ} :
    o.Loads host w setup after ↔ (o.setup? host).run.run w = (.ok setup, after) := by
  cases hpath : o.configFile with
  | none =>
      have hrun : (o.setup? host).run.run w = (.ok Setup.standard, w) := by
        unfold setup?
        rw [hpath]
        rfl
      rw [hrun]
      constructor
      · rintro (- | ⟨h, -⟩)
        · rfl
        · rw [hpath] at h
          cases h
      · intro h
        cases h
        exact .standard hpath
  | some path =>
      rw [run_setup?_of_file hpath]
      constructor
      · rintro (h | ⟨h, hload⟩)
        · rw [hpath] at h
          cases h
        · rw [hpath] at h
          cases h
          rw [hload]
          rfl
      · intro h
        cases hload : Setup.ofFile? ((host.load path).run w).1 with
        | error e =>
            rw [hload] at h
            cases h
        | ok found =>
            rw [hload] at h
            cases h
            exact .file hpath hload

/-- Without room for its events, a run over a setup that loads breaks off. -/
theorem execute?_of_loads {setup : Setup} {after : σ} (h : o.Loads host w setup after)
    (hfull : ¬(o.runner setup).HasRoom) (s : Scenario) :
    (o.runner setup).execute? s = .error [(o.runner setup).opening s] := by
  cases h with
  | standard =>
      -- the two chambers of the usual detector are not too many
      have htwo : Addressable 24 2 := by decide
      exact absurd (Or.inr htwo) hfull
  | file hpath hload => exact Runner.execute?_of_not_hasRoom (Setup.check_of_ofFile? hload) hfull

theorem run_plan?_of_error {why : Refusal} (h : o.scenarios? = .error why) :
    (o.plan? host).run.run w = (.error why, w) := by
  unfold plan?
  rw [h]
  rfl

/-- With known scenarios and a seed, the plan is a matter of the setup. -/
theorem run_plan?_of_ok (host : Host (StateM σ)) (w : σ) {scenarios : List Scenario}
    (h : o.scenarios? = .ok scenarios) (hseed : o.seed ≠ 0) :
    (o.plan? host).run.run w =
      (((o.setup? host).run.run w).1.map fun setup => (scenarios, o.runner setup),
        ((o.setup? host).run.run w).2) := by
  unfold plan? chooseSeed
  rw [h, if_neg hseed, run_bind]
  show (o.setup? host >>= _ : ExceptT Refusal (StateM σ) _).run.run w = _
  rw [run_bind]
  rcases (o.setup? host).run.run w with ⟨_ | setup, after⟩ <;> rfl

/-! ## The ending -/

/-- How the program ends in a world. -/
def ending (o : Options) (host : Host (StateM σ)) (w : σ) : Ending := ((o.perform host).run w).1.2

theorem ending_of_plan?_error {why : Refusal} {after : σ}
    (h : (o.plan? host).run.run w = (.error why, after)) : o.ending host w = .refused why := by
  unfold ending perform
  rw [StateT.run_bind, h]
  rfl

theorem ending_of_plan?_ok {scenarios : List Scenario} {r : Runner} {after : σ}
    (h : (o.plan? host).run.run w = (.ok (scenarios, r), after)) :
    o.ending host w = ((match o.exportFile, scenarios with
      | none, _ => (return runAll r scenarios : StateM σ (List LogLine × Ending))
      | some path, [s] => runAndExport host path s r
      | some _, _ => return ([], .refused .severalExports)).run after).1.2 := by
  unfold ending perform
  rw [StateT.run_bind, h]
  rfl

/-- With room for their events, runs are finished one after the other. -/
theorem runAll_of_hasRoom {r : Runner} (h : r.HasRoom) (scenarios : List Scenario) :
    (runAll r scenarios).2 = .finished (scenarios.map r.run) := by
  induction scenarios with
  | nil => rfl
  | cons s rest ih =>
      rw [runAll, Runner.execute?_of_hasRoom h]
      show ((runAll r rest).2).following (r.run s) = _
      rw [ih]
      rfl

/-- With room for its events, a run that is exported is finished if the export is written. -/
theorem ending_runAndExport {path : String} {s : Scenario} {r : Runner} (hroom : r.HasRoom) :
    ((runAndExport host path s r).run w).1.2 =
      match ((host.save path (r.runWithExport s).2.toText).run w).1 with
      | .error why => .unwritten why
      | .ok () => .finished [r.run s] := by
  have hexport : (r.runWithExport s).2.toText = (r.execute s).toExport.toText := rfl
  rw [runAndExport, Runner.execute?_of_hasRoom hroom, hexport]
  show ((host.save path (r.execute s).toExport.toText >>= _ :
    StateM σ (List LogLine × Ending)).run w).1.2 = _
  rw [StateT.run_bind]
  rcases (host.save path (r.execute s).toExport.toText).run w with ⟨_ | _, after⟩ <;> rfl

/-! ## Runs that begin -/

/-- What is to be run is determined by the options and the world. -/
theorem Begins.unique {scenarios scenarios' : List Scenario} {setup setup' : Setup}
    {after after' : σ} (h : o.Begins host w scenarios setup after)
    (h' : o.Begins host w scenarios' setup' after') :
    scenarios' = scenarios ∧ setup' = setup ∧ after' = after := by
  have hasks := asks_iff.mp h'.asks
  have hloads := loads_iff.mp h'.loads
  rw [asks_iff.mp h.asks] at hasks
  rw [loads_iff.mp h.loads] at hloads
  cases hasks
  cases hloads
  exact ⟨rfl, rfl, rfl⟩

section Seed

variable (hseed : o.seed ≠ 0)
include hseed

/-- Where no runs begin, they are refused. -/
theorem ending_of_not_begins (h : ∀ scenarios setup after, ¬o.Begins host w scenarios setup after) :
    ∃ why, o.ending host w = .refused why := by
  cases hscenarios : o.scenarios? with
  | error why => exact ⟨why, ending_of_plan?_error (run_plan?_of_error hscenarios)⟩
  | ok scenarios =>
      have hplan := run_plan?_of_ok host w hscenarios hseed
      rcases hload : (o.setup? host).run.run w with ⟨why | setup, after⟩ <;> rw [hload] at hplan
      · exact ⟨why, ending_of_plan?_error hplan⟩
      · have hnot : ¬(o.exportFile.isSome = true → ∃ s, scenarios = [s]) := fun hsingle =>
          h scenarios setup after ⟨asks_iff.mpr hscenarios, loads_iff.mpr hload, hsingle⟩
        obtain ⟨hpath, hseveral⟩ := Classical.not_imp.mp hnot
        obtain ⟨path, hpath⟩ := Option.isSome_iff_exists.mp hpath
        refine ⟨.severalExports, ?_⟩
        rw [ending_of_plan?_ok hplan, hpath]
        match scenarios, hseveral with
        | [], _ => rfl
        | [s], hseveral => exact absurd ⟨s, rfl⟩ hseveral
        | first :: second :: rest, _ => rfl

variable {scenarios : List Scenario} {setup : Setup} {after : σ}
  (h : o.Begins host w scenarios setup after)
include h

/-- Runs that begin take their course. -/
theorem ending_of_begins :
    o.ending host w = ((match o.exportFile, scenarios with
      | none, _ =>
          (return runAll (o.runner setup) scenarios : StateM σ (List LogLine × Ending))
      | some path, [s] => runAndExport host path s (o.runner setup)
      | some _, _ => return ([], .refused .severalExports)).run after).1.2 := by
  have hplan := run_plan?_of_ok host w (asks_iff.mp h.asks) hseed
  rw [loads_iff.mp h.loads] at hplan
  exact ending_of_plan?_ok hplan

/-- Without room for their events they break off. -/
theorem ending_of_not_hasRoom (hfull : ¬(o.runner setup).HasRoom) :
    o.ending host w = .brokenOff := by
  have hbreaks := execute?_of_loads h.loads hfull
  rw [ending_of_begins hseed h]
  cases hpath : o.exportFile with
  | none =>
      obtain ⟨s, rest, rfl⟩ : ∃ s rest, scenarios = s :: rest := by
        cases h.asks with
        | all => exact ⟨_, _, rfl⟩
        | single => exact ⟨_, _, rfl⟩
      show (runAll (o.runner setup) (s :: rest)).2 = _
      rw [runAll, hbreaks s]
  | some path =>
      obtain ⟨s, rfl⟩ := h.single (by rw [hpath]; rfl)
      show ((runAndExport host path s (o.runner setup)).run after).1.2 = _
      rw [runAndExport, hbreaks s]
      rfl

variable (hroom : (o.runner setup).HasRoom)
include hroom

/-- With room for them, and with their export written, they are finished. -/
theorem ending_of_writes (hwrites : o.Writes host after (o.runner setup) scenarios) :
    o.ending host w = .finished (scenarios.map (o.runner setup).run) := by
  rw [ending_of_begins hseed h]
  cases hwrites with
  | nothing hpath =>
      rw [hpath]
      exact runAll_of_hasRoom hroom scenarios
  | file hpath hsave =>
      rw [hpath]
      show ((runAndExport host _ _ (o.runner setup)).run after).1.2 = _
      rw [ending_runAndExport hroom, hsave]
      rfl

/-- They end without their outcome if the export cannot be written. -/
theorem ending_of_not_writes (hwrites : ¬o.Writes host after (o.runner setup) scenarios) :
    ∃ why, o.ending host w = .unwritten why := by
  rw [ending_of_begins hseed h]
  cases hpath : o.exportFile with
  | none => exact absurd (.nothing hpath) hwrites
  | some path =>
      obtain ⟨s, rfl⟩ := h.single (by rw [hpath]; rfl)
      show ∃ why, ((runAndExport host path s (o.runner setup)).run after).1.2 = .unwritten why
      rw [ending_runAndExport hroom]
      cases hsave : ((host.save path ((o.runner setup).runWithExport s).2.toText).run after).1 with
      | ok done => exact absurd (.file hpath hsave) hwrites
      | error why => exact ⟨why, rfl⟩

end Seed

/-- The endings of the program: its runs are executed, and it finishes with their outcomes, or they
begin and break off, or else it ends in a way that leaves nothing but a code of 1. -/
theorem ending_cases (o : Options) (host : Host (StateM σ)) (w : σ) (hseed : o.seed ≠ 0) :
    (∃ scenarios setup after, o.Executes host w scenarios setup after ∧
        o.ending host w = .finished (scenarios.map (o.runner setup).run)) ∨
      (∃ scenarios setup after, o.Begins host w scenarios setup after ∧
        ¬(o.runner setup).HasRoom ∧ o.ending host w = .brokenOff) ∨
      ((∀ scenarios setup after, ¬o.Executes host w scenarios setup after) ∧
        (∀ scenarios setup after, o.Begins host w scenarios setup after →
          (o.runner setup).HasRoom) ∧
        (o.ending host w).code = 1 ∧ (o.ending host w).summary = "") := by
  by_cases hbegins : ∃ scenarios setup after, o.Begins host w scenarios setup after
  · obtain ⟨scenarios, setup, after, h⟩ := hbegins
    by_cases hroom : (o.runner setup).HasRoom
    · by_cases hwrites : o.Writes host after (o.runner setup) scenarios
      · exact Or.inl ⟨scenarios, setup, after, ⟨h, hroom, hwrites⟩,
          ending_of_writes hseed h hroom hwrites⟩
      · obtain ⟨why, hending⟩ := ending_of_not_writes hseed h hroom hwrites
        refine Or.inr (Or.inr ⟨?_, ?_, by rw [hending]; rfl, by rw [hending]; rfl⟩)
        · intro scenarios' setup' after' h'
          obtain ⟨rfl, rfl, rfl⟩ := h.unique h'.toBegins
          exact hwrites h'.writes
        · intro scenarios' setup' after' h'
          obtain ⟨rfl, rfl, rfl⟩ := h.unique h'
          exact hroom
    · have hending := ending_of_not_hasRoom hseed h hroom
      exact Or.inr (Or.inl ⟨scenarios, setup, after, h, hroom, hending⟩)
  · have hnone : ∀ scenarios setup after, ¬o.Begins host w scenarios setup after :=
      fun scenarios setup after h => hbegins ⟨scenarios, setup, after, h⟩
    obtain ⟨why, hending⟩ := ending_of_not_begins hseed hnone
    refine Or.inr (Or.inr ⟨fun _ _ _ h => hnone _ _ _ h.toBegins,
      fun _ _ _ h => absurd h (hnone _ _ _), by rw [hending]; rfl, by rw [hending]; rfl⟩)

end Options

/-! ## Code and report -/

namespace Ending

variable {e : Ending} {results : List RunResult}

/-- A program that finishes passes exactly if no run failed. -/
theorem code_finished_eq_zero_iff :
    (finished results).code = 0 ↔ ∀ r ∈ results, r.passed = true := by
  have hfailed : failedRuns results = 0 ↔ ∀ r ∈ results, r.passed = true := by
    simp [failedRuns, List.countP_eq_zero]
  rw [code, ← hfailed]
  split
  · next hzero => exact iff_of_true rfl hzero
  · next hne => exact iff_of_false (by decide) hne

/-- Otherwise its code is 1, and there is a failed run. -/
theorem code_finished_eq_one_iff : (finished results).code = 1 ↔ 0 < failedRuns results := by
  rw [code]
  split
  · next hzero => exact iff_of_false (by decide) (Nat.not_lt.mpr (Nat.le_of_eq hzero))
  · next hne => exact iff_of_true rfl (Nat.pos_of_ne_zero hne)

theorem code_finished_cases (results : List RunResult) :
    (finished results).code = 0 ∨ (finished results).code = 1 := by
  rw [code]
  split
  · exact Or.inl rfl
  · exact Or.inr rfl

/-- The report is the summary where one is wanted. -/
theorem report_outcome (json : Bool) (log : List LogLine) :
    (e.outcome json log).report = if json then e.summary else "" := by
  unfold outcome
  split <;> rfl

theorem code_outcome (json : Bool) (log : List LogLine) : (e.outcome json log).code = e.code := by
  unfold outcome
  split <;> rfl

end Ending

namespace Options

variable {o : Options} {host : Host (StateM σ)} {w : σ} (hseed : o.seed ≠ 0)
include hseed

theorem ending_of_executes {scenarios : List Scenario} {setup : Setup} {after : σ}
    (h : o.Executes host w scenarios setup after) :
    o.ending host w = .finished (scenarios.map (o.runner setup).run) :=
  ending_of_writes hseed h.toBegins h.hasRoom h.writes

/-- The code is 0 exactly if all runs are executed and pass. -/
theorem code_ending_eq_zero_iff :
    (o.ending host w).code = 0 ↔ ∃ scenarios setup after,
      o.Executes host w scenarios setup after ∧
        ∀ s ∈ scenarios, ((o.runner setup).run s).passed = true := by
  constructor
  · intro hcode
    rcases o.ending_cases host w hseed with ⟨scenarios, setup, after, h, hending⟩ |
      ⟨-, -, -, -, -, hending⟩ | ⟨-, -, hone, -⟩
    · rw [hending, Ending.code_finished_eq_zero_iff, List.forall_mem_map] at hcode
      exact ⟨scenarios, setup, after, h, hcode⟩
    · rw [hending] at hcode
      cases hcode
    · rw [hone] at hcode
      cases hcode
  · rintro ⟨scenarios, setup, after, h, hpassed⟩
    rw [ending_of_executes hseed h, Ending.code_finished_eq_zero_iff]
    exact List.forall_mem_map.mpr hpassed

/-- It is 101 exactly if runs begin for which there is no room. -/
theorem code_ending_eq_brokenOff_iff :
    (o.ending host w).code = 101 ↔ ∃ scenarios setup after,
      o.Begins host w scenarios setup after ∧ ¬(o.runner setup).HasRoom := by
  constructor
  · intro hcode
    rcases o.ending_cases host w hseed with ⟨scenarios, setup, after, -, hending⟩ |
      ⟨scenarios, setup, after, h, hfull, -⟩ | ⟨-, -, hone, -⟩
    · rw [hending] at hcode
      rcases Ending.code_finished_cases (scenarios.map (o.runner setup).run) with hzero | hone
      · rw [hzero] at hcode
        cases hcode
      · rw [hone] at hcode
        cases hcode
    · exact ⟨scenarios, setup, after, h, hfull⟩
    · rw [hone] at hcode
      cases hcode
  · rintro ⟨scenarios, setup, after, h, hfull⟩
    rw [ending_of_not_hasRoom hseed h hfull]
    rfl

theorem code_ending_cases (host : Host (StateM σ)) (w : σ) :
    (o.ending host w).code = 0 ∨ (o.ending host w).code = 101 ∨ (o.ending host w).code = 1 := by
  rcases o.ending_cases host w hseed with ⟨scenarios, setup, -, -, hending⟩ |
    ⟨-, -, -, -, -, hending⟩ | ⟨-, -, hone, -⟩
  · rw [hending]
    rcases Ending.code_finished_cases (scenarios.map (o.runner setup).run) with hzero | hone
    · exact Or.inl hzero
    · exact Or.inr (Or.inr hone)
  · rw [hending]
    exact Or.inr (Or.inl rfl)
  · exact Or.inr (Or.inr hone)

/-- Only executed runs leave a summary. -/
theorem summary_ending_of_not_executes
    (h : ∀ scenarios setup after, ¬o.Executes host w scenarios setup after) :
    (o.ending host w).summary = "" := by
  rcases o.ending_cases host w hseed with ⟨scenarios, setup, after, h', -⟩ |
    ⟨-, -, -, -, -, hending⟩ | ⟨-, -, -, hsummary⟩
  · exact absurd h' (h scenarios setup after)
  · rw [hending]
    rfl
  · exact hsummary

end Options

/-! ## The summary -/

/-- A summary counts all runs, those that passed and those that failed. -/
theorem record_summaryJson (results : List RunResult) :
    (summaryJson results).record ["total", "passed", "failed"] =
      some [some (.nat results.length), some (.nat (results.length - failedRuns results)),
        some (.nat (failedRuns results))] := by
  rfl

open Json in
theorem Metrics.whole_toSortedJson (m : Metrics) : Whole m.toSortedJson :=
  .object (by simpa using ⟨.number _, .number _, .number _, .number _, .number _, whole_float _,
    whole_float _, whole_float _, .number _, .number _, .number _, .number _⟩)

open Json in
theorem RunResult.whole_toJson (r : RunResult) : Whole r.toJson := by
  have hreason : Whole (.option Json.string r.failure?) := by
    cases r.failure? with
    | none => exact .null
    | some why => exact .string why
  exact .object (by
    simpa using ⟨hreason, r.metrics.whole_toSortedJson, .bool _, .string _, .number _⟩)

open Json in
/-- No part of a summary is broken, so it can be read back from its text. -/
theorem whole_summaryJson (results : List RunResult) : Whole (summaryJson results) :=
  .object (by simpa using ⟨.number _, .number _, whole_list fun r _ => r.whole_toJson, .number _⟩)

/-! ## The program -/

namespace Host

variable {host : Host (StateM σ)} {arguments : List String} {o : Options} {w : σ}

theorem exists_outcome_eq (host : Host (StateM σ)) (w : σ)
    (h : Options.ofArguments? arguments = some o) :
    ∃ log, host.outcome arguments w = (o.ending host w).outcome o.json log := by
  refine ⟨((o.perform host).run w).1.1, ?_⟩
  unfold outcome run
  rw [h]
  rfl

/-- What the program leaves behind, for arguments without a usage error and with a seed, in any
world.  Its code is 0 if the runs that are asked for are executed, with their export if there is to
be one, and all of them pass.  It is 101 if they begin and there is no room for their events: some
are asked for, of a detector with more chambers than can be listed.  Otherwise it is 1.  With a
summary, executed runs leave the summary of their outcomes, in order, from whose text it can be read
again.  Its counts add up: there is a failed run exactly if the code is 1.  In every other case
nothing is printed. -/
theorem run_outcome (host : Host (StateM σ)) (w : σ)
    (hoptions : Options.ofArguments? arguments = some o) (hseed : o.seed ≠ 0) :
    ((host.outcome arguments w).code = 0 ↔ ∃ scenarios setup after,
        o.Executes host w scenarios setup after ∧
          ∀ s ∈ scenarios, ((o.runner setup).run s).passed = true) ∧
      ((host.outcome arguments w).code = 101 ↔ ∃ scenarios setup after,
        o.Begins host w scenarios setup after ∧ ¬(o.runner setup).HasRoom) ∧
      ((host.outcome arguments w).code ≠ 0 → (host.outcome arguments w).code ≠ 101 →
        (host.outcome arguments w).code = 1) ∧
      (∀ scenarios setup after, o.Executes host w scenarios setup after → o.json = true →
        (host.outcome arguments w).report =
            (summaryJson (scenarios.map (o.runner setup).run)).prettyText ++ "\n" ∧
          Json.parse (host.outcome arguments w).report =
            some (summaryJson (scenarios.map (o.runner setup).run)) ∧
          ∃ passed failed, (summaryJson (scenarios.map (o.runner setup).run)).record
              ["total", "passed", "failed"] =
                some [some (.nat scenarios.length), some (.nat passed), some (.nat failed)] ∧
            passed + failed = scenarios.length ∧
            (0 < failed ↔ (host.outcome arguments w).code = 1)) ∧
      (¬(o.json = true ∧ ∃ scenarios setup after, o.Executes host w scenarios setup after) →
        (host.outcome arguments w).report = "") := by
  obtain ⟨log, houtcome⟩ := exists_outcome_eq host w hoptions
  rw [houtcome, Ending.code_outcome, Ending.report_outcome]
  refine ⟨Options.code_ending_eq_zero_iff hseed, Options.code_ending_eq_brokenOff_iff hseed,
    fun hzero hbroken =>
      ((Options.code_ending_cases hseed host w).resolve_left hzero).resolve_left hbroken, ?_, ?_⟩
  · intro scenarios setup after h hjson
    rw [Options.ending_of_executes hseed h, if_pos hjson]
    have hle : failedRuns (scenarios.map (o.runner setup).run) ≤ scenarios.length := by
      rw [failedRuns, ← List.length_map (o.runner setup).run]
      exact List.countP_le_length
    refine ⟨rfl, Json.parse_prettyText_append (whole_summaryJson _), _, _, ?_,
      Nat.sub_add_cancel hle, Ending.code_finished_eq_one_iff.symm⟩
    rw [record_summaryJson, List.length_map]
  · intro h
    split
    · next hjson =>
        exact Options.summary_ending_of_not_executes hseed fun scenarios setup after h' =>
          h ⟨hjson, scenarios, setup, after, h'⟩
    · rfl

end Host

/-- A run without events never passes. -/
theorem Runner.passed_of_events_eq_zero {r : Runner} (h : r.events = 0) (s : Scenario) :
    (r.run s).passed = false := by
  have hfailure : ∀ m : Metrics, m.events = 0 → (s.failure? m).isSome = true := by
    intro m hm
    rw [Scenario.failure?, Option.isSome_map, List.find?_isSome]
    refine ⟨(decide (0 < m.events), "No events processed"), ?_, by simp [hm]⟩
    unfold Scenario.requirements
    exact List.mem_append_right _ (List.mem_singleton.mpr rfl)
  rw [RunResult.passed, run, execute]
  cases htracker : (r.setupFor s).tracker? with
  | error e => rfl
  | ok tracker =>
      have hnone : r.eventsOf s tracker = [] := by rw [eventsOf, h, runEvents]
      show (s.failure? (metricsOf (r.eventsOf s tracker))).isNone = false
      rw [Option.isNone_eq_false_iff, hnone]
      exact hfailure _ rfl

/-- A world of written files, in which one setup can be read. -/
def Host.shelf (text : String) : Host (StateM (List String)) where
  load path := return if path = "setup.json" then .ok text.toUTF8 else .error .missing
  save path _ := do
    modify (path :: ·)
    return .ok ()
  clock := return 7

/-- A run of no event that is exported: it fails, and the summary says so. -/
theorem Host.run_outcome_shelf :
    Options.ofArguments? ["--json", "-S", "Noisy", "--events=0", "-csetup.json",
        "--export", "run.json"] =
          some ⟨42, 0, "Noisy", some "setup.json", false, true, some "run.json"⟩ ∧
      ((Host.shelf Setup.onePlaneText).outcome ["--json", "-S", "Noisy", "--events=0",
        "-csetup.json", "--export", "run.json"] []).code = 1 ∧
      Json.parse ((Host.shelf Setup.onePlaneText).outcome ["--json", "-S", "Noisy", "--events=0",
        "-csetup.json", "--export", "run.json"] []).report =
          some (summaryJson [(⟨42, 0, Setup.onePlane⟩ : Runner).run .noisy]) := by
  have hoptions : Options.ofArguments? ["--json", "-S", "Noisy", "--events=0", "-csetup.json",
      "--export", "run.json"] =
        some ⟨42, 0, "Noisy", some "setup.json", false, true, some "run.json"⟩ := by
    decide +kernel
  have hbegins : Options.Begins ⟨42, 0, "Noisy", some "setup.json", false, true,
      some "run.json"⟩ (Host.shelf Setup.onePlaneText) [] [.noisy] Setup.onePlane [] :=
    ⟨.single (by decide +kernel), .file rfl (by decide +kernel), fun _ => ⟨_, rfl⟩⟩
  have hexecutes : Options.Executes ⟨42, 0, "Noisy", some "setup.json", false, true,
      some "run.json"⟩ (Host.shelf Setup.onePlaneText) [] [.noisy] Setup.onePlane [] :=
    ⟨hbegins, Or.inl rfl, .file rfl rfl⟩
  obtain ⟨hzero, hbroken, hone, hreport, -⟩ :=
    Host.run_outcome (Host.shelf Setup.onePlaneText) [] hoptions (by decide)
  refine ⟨hoptions, hone ?_ ?_, (hreport _ _ _ hexecutes rfl).2.1⟩
  · intro hcode
    obtain ⟨scenarios, setup, after, h, hpassed⟩ := hzero.mp hcode
    obtain ⟨rfl, -, -⟩ := hbegins.unique h.toBegins
    have hfailed := hpassed .noisy (by simp)
    rw [Runner.passed_of_events_eq_zero rfl] at hfailed
    cases hfailed
  · intro hcode
    obtain ⟨scenarios, setup, after, -, hfull⟩ := hbroken.mp hcode
    exact hfull (Or.inl rfl)

/-- The text of a detector with one plane in the first of as many chambers as 64 bits count. -/
def Setup.boundlessText : String :=
  "\x7b \"detector\": [18446744073709551615, [\x7b\"name\": \"u\", \"chamber\": 1, " ++
    "\"sigma\": 0.5, \"coefficients\": [0, 0, 3, 4, 0.5, 0.75, 0, 0, 1]\x7d]] \x7d"

/-- It is a setup like any other, but no event has room in it.  A run of one event is asked for,
with its summary, and neither 0 nor 1 is the code. -/
theorem Host.not_code_mem_boundless :
    (∃ setup, Setup.ofText? Setup.boundlessText = .ok setup ∧ setup.check = .ok ()) ∧
      Options.ofArguments? ["--json", "-S", "single_track", "-e", "1", "-c", "setup.json"] =
        some ⟨42, 1, "single_track", some "setup.json", false, true, none⟩ ∧
      ¬(((Host.shelf Setup.boundlessText).outcome
            ["--json", "-S", "single_track", "-e", "1", "-c", "setup.json"] []).code = 0 ∨
          ((Host.shelf Setup.boundlessText).outcome
            ["--json", "-S", "single_track", "-e", "1", "-c", "setup.json"] []).code = 1) := by
  have hread : ∃ setup, Setup.ofText? Setup.boundlessText = .ok setup := by
    have hok : (Setup.ofText? Setup.boundlessText).isOk = true := by decide +kernel
    cases htext : Setup.ofText? Setup.boundlessText with
    | ok setup => exact ⟨setup, rfl⟩
    | error e =>
        rw [htext] at hok
        cases hok
  obtain ⟨setup, htext⟩ := hread
  refine ⟨⟨setup, htext, Setup.check_of_ofText? htext⟩, by decide +kernel, ?_⟩
  decide +kernel

end DriftChamber
