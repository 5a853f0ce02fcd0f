import FeatureTree.Log.Console
import FeatureTree.Proofs.Account
/-!
# What a console shows of a run

A console is not part of the library. What is documented of one is that it
reads the library's directives (`Console.ReadsDirectives`) and that a
process takes one filter for good (`Console.InstallsOnce`). Of every such
console it is true that what it shows of a run are the lines of the run's
account that matter as much as the settings ask for that asked first, and
nothing from outside the library (`firstDirectiveStays`).
-/

namespace FeatureTree

/-! ## What is documented of consoles -/

/-- The words that a directive may name its threshold by. -/
def thresholdWords : List (String × Severity) :=
  [("trace", .trace), ("debug", .debug), ("info", .info), ("warn", .warn), ("error", .error)]

namespace Console

/-- **What is documented of filters**: under the library's name, an equals
sign and a word, just the targets are let through that start with the
name, at the severity of the word and at all that matter more. -/
def ReadsDirectives (console : Console) : Prop :=
  ∀ word ∈ thresholdWords, ∀ target s,
    console.read ("gherkin_ast_builder=" ++ word.1) target s = true ↔
      "gherkin_ast_builder".toList <+: target.toList ∧ word.2.rank ≤ s.rank

/-- **What is documented of processes**: installing a filter succeeds
once. -/
structure InstallsOnce (console : Console) : Prop where
  /-- A fresh process has no filter. -/
  fresh : console.installed console.fresh = none
  /-- Where there is none, one can be installed. -/
  first {process : console.Process} (h : console.installed process = none) (filter : LogFilter) :
    ∃ after, console.install process filter = some after ∧ console.installed after = some filter
  /-- Where there is one, another is refused. -/
  later {process : console.Process} {filter : LogFilter}
    (h : console.installed process = some filter) (filter' : LogFilter) :
    console.install process filter' = none

end Console

/-- Severities are named by these words. -/
theorem name_mem_thresholdWords (s : Severity) : (s.name, s) ∈ thresholdWords := by
  cases s <;> decide

/-- All entries come from targets that start with the library's name. -/
theorem Entry.logTarget_prefix_target (entry : Entry) :
    "gherkin_ast_builder".toList <+: entry.target.toList := by
  have hclosing : "gherkin_ast_builder".toList <+: "gherkin_ast_builder::transform".toList := by
    decide
  have hassembly : "gherkin_ast_builder".toList <+: "gherkin_ast_builder::builder".toList := by
    decide
  cases entry with
  | made _ _ _ | oddRow _ _ _ => exact hclosing
  | leaf _ _ | entered _ _ | exited _ _ | refused _ _ | failed _ _ => exact hassembly

/-! ## What is asked of a console -/

namespace Console

variable {console : Console}

/-- The directive of settings lets through the targets that start with the
library's name, from their severity on. -/
theorem read_directive_iff (hreads : console.ReadsDirectives) (settings : Settings)
    {target : String} {s : Severity} :
    console.read settings.directive target s = true ↔
      "gherkin_ast_builder".toList <+: target.toList ∧ settings.severity.rank ≤ s.rank := by
  have hname : logTarget ++ "=" = "gherkin_ast_builder=" := by decide
  rw [Settings.directive, hname]
  exact hreads _ (name_mem_thresholdWords settings.severity) target s

section

variable (hinstalls : console.InstallsOnce)
include hinstalls

/-- The settings that ask first have their filter installed, -/
theorem installed_asked (first : Settings) :
    console.installed (console.asked [first]) = some (console.read first.directive) := by
  obtain ⟨after, hinstall, hinstalled⟩ :=
    hinstalls.first hinstalls.fresh (console.read first.directive)
  have hafter : console.asked [first] = after := by
    rw [asked, List.foldl_cons, List.foldl_nil, ask, hinstall, Option.getD_some]
  rw [hafter, hinstalled]

/-- those that ask later change nothing, -/
theorem ask_of_installed {process : console.Process} {filter : LogFilter}
    (h : console.installed process = some filter) (settings : Settings) :
    console.ask process settings = process := by
  rw [ask, hinstalls.later h, Option.getD_none]

/-- **and so the first filter stays.** -/
theorem asked_cons (first : Settings) (later : List Settings) :
    console.asked (first :: later) = console.asked [first] := by
  have hinstalled := installed_asked hinstalls first
  rw [asked, List.foldl_cons]
  change later.foldl console.ask (console.asked [first]) = console.asked [first]
  induction later with
  | nil => rfl
  | cons settings later ih => rw [List.foldl_cons, ask_of_installed hinstalls hinstalled, ih]

/-- What is let through is what the first directive asks for. -/
theorem enables_asked (first : Settings) (later : List Settings) (target : String) (s : Severity) :
    console.enables (console.asked (first :: later)) target s =
      console.read first.directive target s := by
  rw [asked_cons hinstalls, enables, installed_asked hinstalls]

/-- **What is shown of a log** are the entries that matter enough. -/
theorem shown_asked (hreads : console.ReadsDirectives) (first : Settings) (later : List Settings)
    (log : List Entry) :
    console.shown (console.asked (first :: later)) log = Entry.restrict first.severity log := by
  refine List.filter_congr fun entry _ => ?_
  rw [Bool.eq_iff_iff, enables_asked hinstalls, read_directive_iff hreads, Severity.shows,
    decide_eq_true_iff]
  exact and_iff_right entry.logTarget_prefix_target

end

end Console

/-- Fewer entries matter to a higher threshold. -/
theorem restrict_sublist {threshold threshold' : Severity} (h : threshold.rank ≤ threshold'.rank)
    (log : List Entry) :
    (Entry.restrict threshold' log).Sublist (Entry.restrict threshold log) := by
  refine List.monotone_filter_right log fun entry hshown => ?_
  rw [Severity.shows, decide_eq_true_iff] at hshown ⊢
  exact le_trans h hshown

/-- A log is restricted as its lines are. -/
theorem map_line_restrict (threshold : Severity) (log : List Entry) :
    (Entry.restrict threshold log).map Entry.line =
      (log.map Entry.line).filter fun line => threshold.rank ≤ line.severity.rank := by
  rw [List.filter_map]
  rfl

/-! ## What is written of a run -/

/-- **What a console shows of a run**: in a fresh process settings ask in
turn, the first and perhaps more, and then some events are assembled. -/
structure FirstDirectiveStays (console : Console) (first : Settings) (later : List Settings)
    (settings : Settings) (events : List Event) : Prop where
  /-- What is let through are the targets that start with the library's
  name, from the severity on that the first settings ask for. -/
  filtered (target : String) (s : Severity) :
    console.enables (console.asked (first :: later)) target s = true ↔
      "gherkin_ast_builder".toList <+: target.toList ∧ first.severity.rank ≤ s.rank
  /-- The lines written are those of the run's account, in order, that
  matter as much as the first settings ask for. -/
  written : ∃ told, Account settings events (assemble settings events) told ∧
    (console.shown (console.asked (first :: later)) (assemblyLog settings events)).map Entry.line =
      told.filter fun line => first.severity.rank ≤ line.severity.rank
  /-- Settings that ask later make no difference. -/
  later_idle : console.asked (first :: later) = console.asked [first]
  /-- First settings that ask for more only add lines. -/
  louder (louder : Settings) (others : List Settings)
    (hlouder : louder.severity.rank ≤ first.severity.rank) :
    (console.shown (console.asked (first :: later)) (assemblyLog settings events)).Sublist
      (console.shown (console.asked (louder :: others)) (assemblyLog settings events))
  /-- How much is asked for changes neither the outcome nor what there is
  to be shown. -/
  outcome (severity : Severity) :
    assemble (settings.setSeverity severity) events = assemble settings events ∧
      assemblyLog (settings.setSeverity severity) events = assemblyLog settings events
  /-- Nothing is let through from targets outside the library. -/
  foreign (target : String) (htarget : ¬ "gherkin_ast_builder".toList <+: target.toList) :
    console.enabled (console.asked (first :: later)) target = []

/-- **A console shows what the first settings ask for.** -/
theorem firstDirectiveStays {console : Console} (hreads : console.ReadsDirectives)
    (hinstalls : console.InstallsOnce) (first : Settings) (later : List Settings)
    (settings : Settings) (events : List Event) :
    FirstDirectiveStays console first later settings events where
  filtered := by
    intro target s
    rw [Console.enables_asked hinstalls]
    exact Console.read_directive_iff hreads first
  written := by
    refine ⟨_, account_log settings events, ?_⟩
    rw [Console.shown_asked hinstalls hreads, map_line_restrict]
  later_idle := Console.asked_cons hinstalls first later
  louder := by
    intro louder others hlouder
    rw [Console.shown_asked hinstalls hreads, Console.shown_asked hinstalls hreads]
    exact restrict_sublist hlouder _
  outcome _ := ⟨rfl, rfl⟩
  foreign := by
    intro target htarget
    refine List.filter_eq_nil_iff.mpr fun s _ henabled => htarget ?_
    rw [Console.enables_asked hinstalls] at henabled
    exact ((Console.read_directive_iff hreads first).mp henabled).1

/-- The directives of this library are read in this way by the filters
that stand around an equals sign, -/
theorem readsDirectives_keepingFirst : Console.keepingFirst.ReadsDirectives := by
  intro word hword target s
  have hscope : (("gherkin_ast_builder=" ++ word.1).toList.takeWhile (· != '=')) =
      "gherkin_ast_builder".toList := by
    revert word
    decide
  have hthreshold : (Severity.all.find? fun threshold => threshold.name.toList ==
      (("gherkin_ast_builder=" ++ word.1).toList.dropWhile (· != '=')).drop 1) = some word.2 := by
    revert word
    decide
  change LogFilter.ofDirective _ target s = true ↔ _
  simp only [LogFilter.ofDirective, hscope, hthreshold, Option.any_some, Bool.and_eq_true,
    List.isPrefixOf_iff_prefix, Severity.shows, decide_eq_true_iff]

/-- and a process that keeps its first filter takes one for good. -/
theorem installsOnce_keepingFirst : Console.keepingFirst.InstallsOnce where
  fresh := rfl
  first := by
    rintro _ rfl filter
    exact ⟨some filter, rfl, rfl⟩
  later := by
    rintro _ filter rfl filter'
    rfl

/-- A data table with a row that is too short, in a walk that goes on. -/
def shortRowWalk : List Event :=
  [.enter .dataTable, .leaf { kind := .tableRow, location := ⟨2, 3⟩, spans := [⟨5, "1"⟩] },
    .leaf { kind := .tableRow, location := ⟨3, 3⟩ }, .exit .dataTable, .exit .step]

/-- Where warnings are asked for first, the short row alone is written,
and not the lines of the walk that were asked for later. -/
theorem firstDirectiveStays_shortRowWalk :
    Console.keepingFirst.ReadsDirectives ∧ Console.keepingFirst.InstallsOnce ∧
      FirstDirectiveStays .keepingFirst { severity := .warn } [{ severity := .trace }] {}
        shortRowWalk ∧
      (Console.keepingFirst.shown
        (Console.keepingFirst.asked [{ severity := .warn }, { severity := .trace }])
        (assemblyLog {} shortRowWalk)).map (fun entry => entry.severity.label) = ["WARN"] ∧
      (Console.keepingFirst.shown (Console.keepingFirst.asked [{ severity := .trace }])
        (assemblyLog {} shortRowWalk)).map (fun entry => entry.severity.label) =
          ["TRACE", "TRACE", "TRACE", "WARN"] := by
  have hstays := firstDirectiveStays readsDirectives_keepingFirst installsOnce_keepingFirst
    { severity := .warn } [{ severity := .trace }] {} shortRowWalk
  refine ⟨readsDirectives_keepingFirst, installsOnce_keepingFirst, hstays, ?_, by decide⟩
  rw [hstays.later_idle]
  decide

end FeatureTree
