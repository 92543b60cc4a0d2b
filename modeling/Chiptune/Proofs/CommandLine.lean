import Chiptune.CommandLine
import Mathlib.Data.List.Induction

/-!
# `Chiptune.Proofs.CommandLine`: the grammar of the command line

The grammar is written down without the reader. A `Phrase` is the arguments that ask for one thing,
and `Invocation.asked` is what a list of phrases asks for: of each option the last value, and the
switches that occur. A `Halt` is the arguments that end the reading before the end of the line, with
the outcome that they decide.

What an argument stands for depends on the one in front of it: behind an option with a value, any
argument is its value. The reader is therefore followed phrase by phrase.

* `CommandLine.parseFrom_line`: phrases at the start of a line are taken in, whatever comes behind.
* `CommandLine.parse_halt`: behind them, a halt decides, whatever comes behind it.
* `CommandLine.divided`: every list of arguments is phrases to its end, or phrases up to a halt.

`CommandLine.grammar_decides` is the main statement.
-/

set_option autoImplicit false

namespace Chiptune

namespace CommandLine

/-! ### Spelling -/

/-- How an option with a value is written. -/
def ValueOption.name : ValueOption → String
  | config => "--config"
  | writeConfig => "--write-config"
  | seconds => "--seconds"

/-- How a switch can be written. -/
def Switch.names : Switch → List String
  | mono => ["--mono"]
  | filters => ["--filters"]
  | dac => ["--dac"]
  | verbose => ["--verbose", "-v"]

/-- How help can be asked for. -/
def helpNames : List String := ["--help", "-h"]

/-- All that stands for something where an option is expected. -/
def optionNames : List String :=
  [ValueOption.config, .writeConfig, .seconds].map ValueOption.name ++
    [Switch.mono, .filters, .dac, .verbose].flatMap Switch.names ++ helpNames

theorem Word.ofArgument_name (option : ValueOption) : ofArgument option.name = valued option := by
  cases option
  all_goals rfl

theorem Word.ofArgument_of_mem_names {switch : Switch} {arg : String} (h : arg ∈ switch.names) :
    ofArgument arg = plain switch := by
  cases switch
  case verbose =>
    rcases List.mem_cons.mp h with rfl | h
    · rfl
    · obtain rfl := List.mem_singleton.mp h
      rfl
  all_goals
    obtain rfl := List.mem_singleton.mp h
    rfl

theorem Word.ofArgument_of_mem_helpNames {arg : String} (h : arg ∈ helpNames) :
    ofArgument arg = help := by
  rcases List.mem_cons.mp h with rfl | h
  · rfl
  · obtain rfl := List.mem_singleton.mp h
    rfl

theorem Word.ofArgument_of_not_mem {arg : String} (h : arg ∉ optionNames) :
    ofArgument arg = other := by
  simp only [optionNames, ValueOption.name, Switch.names, helpNames, List.map_cons, List.map_nil,
    List.flatMap_cons, List.flatMap_nil, List.cons_append, List.nil_append, List.mem_cons,
    List.not_mem_nil, or_false, not_or] at h
  simp [ofArgument, h]

/-- An argument is the name of something, or no name. -/
theorem spelled (arg : String) :
    (∃ option : ValueOption, arg = option.name) ∨ (∃ switch : Switch, arg ∈ switch.names) ∨
      arg ∈ helpNames ∨ arg ∉ optionNames := by
  by_cases h : arg ∈ optionNames
  · rcases List.mem_append.mp h with h | hhelp
    · rcases List.mem_append.mp h with hoption | hswitch
      · obtain ⟨option, -, rfl⟩ := List.mem_map.mp hoption
        exact Or.inl ⟨option, rfl⟩
      · obtain ⟨switch, -, hnamed⟩ := List.mem_flatMap.mp hswitch
        exact Or.inr (Or.inl ⟨switch, hnamed⟩)
    · exact Or.inr (Or.inr (Or.inl hhelp))
  · exact Or.inr (Or.inr (Or.inr h))

/-! ### Phrases and halts -/

/-- Arguments that ask for one thing. A value is taken as it is. -/
inductive Phrase where
  | config (path : String)
  | writeConfig (path : String)
  | seconds (text : String) (length : Float32) (reads : Decimal.readSingle text = .ok length)
  | plain (switch : Switch) (written : String) (named : written ∈ switch.names)

namespace Phrase

/-- The arguments of the phrase. -/
def arguments : Phrase → List String
  | config path => ["--config", path]
  | writeConfig path => ["--write-config", path]
  | seconds text _ _ => ["--seconds", text]
  | plain _ written _ => [written]

/-- The option that the phrase is about. -/
def option : Phrase → Word
  | config _ => .valued .config
  | writeConfig _ => .valued .writeConfig
  | seconds _ _ _ => .valued .seconds
  | plain switch _ _ => .plain switch

/-- The path to read settings from. -/
def configPath? : Phrase → Option String
  | config path => some path
  | _ => none

/-- The path to write settings to. -/
def writePath? : Phrase → Option String
  | writeConfig path => some path
  | _ => none

/-- The length of the demo. -/
def length? : Phrase → Option Float32
  | seconds _ length _ => some length
  | _ => none

/-- Whether the phrase is a certain switch. -/
def sets (wanted : Switch) (phrase : Phrase) : Bool := phrase.option = .plain wanted

/-- Takes in what the phrase asks for. -/
def apply (i : Invocation) : Phrase → Invocation
  | config path => { i with config := some path }
  | writeConfig path => { i with writeConfig := some path }
  | seconds _ length _ => { i with seconds := length }
  | plain switch _ _ => setSwitch i switch

end Phrase

/-- The arguments of a list of phrases. -/
def line (phrases : List Phrase) : List String := phrases.flatMap Phrase.arguments

/-- Arguments that end the reading. -/
inductive Halt where
  | help (written : String) (named : written ∈ helpNames)
  | missingValue (option : ValueOption)
  | badSeconds (text : String) (fault : Decimal.ReadFault)
      (reads : Decimal.readSingle text = .error fault)
  | unknownArgument (arg : String) (unknown : arg ∉ optionNames)

namespace Halt

/-- The arguments of the halt. -/
def arguments : Halt → List String
  | help written _ => [written]
  | missingValue option => [option.name]
  | badSeconds text _ _ => ["--seconds", text]
  | unknownArgument arg _ => [arg]

/-- What the command line comes to. -/
def outcome : Halt → Except UsageFault Request
  | help _ _ => .ok .help
  | missingValue option => .error (.missingValue option)
  | badSeconds text fault _ => .error (.badSeconds text fault)
  | unknownArgument arg _ => .error (.unknownArgument arg)

/-- What may come behind the halt: a value is missing only at the end. -/
def Before (rest : List String) : Halt → Prop
  | missingValue _ => rest = []
  | _ => True

end Halt

end CommandLine

open CommandLine in
/-- What a list of phrases asks for. -/
def Invocation.asked (phrases : List Phrase) : Invocation where
  config := (phrases.filterMap Phrase.configPath?).getLast?
  writeConfig := (phrases.filterMap Phrase.writePath?).getLast?
  seconds := (phrases.filterMap Phrase.length?).getLast?.getD 4.0
  mono := phrases.any (Phrase.sets .mono)
  filters := phrases.any (Phrase.sets .filters)
  dac := phrases.any (Phrase.sets .dac)
  verbose := phrases.any (Phrase.sets .verbose)

namespace CommandLine

variable {i : Invocation} {rest : List String}

/-! ### What phrases ask for -/

theorem asked_concat (phrases : List Phrase) (phrase : Phrase) :
    Invocation.asked (phrases ++ [phrase]) = phrase.apply (.asked phrases) := by
  simp only [Invocation.asked, List.filterMap_append, List.any_append]
  cases phrase with
  | plain switch written named =>
    cases switch <;> simp [Phrase.apply, setSwitch, Phrase.sets, Phrase.option, Phrase.configPath?,
      Phrase.writePath?, Phrase.length?]
  | _ => simp [Phrase.apply, Phrase.sets, Phrase.option, Phrase.configPath?, Phrase.writePath?,
      Phrase.length?]

/-- Phrases taken in one by one come to what they ask for together. -/
theorem foldl_apply (phrases : List Phrase) :
    phrases.foldl Phrase.apply {} = Invocation.asked phrases := by
  induction phrases using List.reverseRecOn with
  | nil => rfl
  | append_singleton phrases phrase ih =>
    rw [List.foldl_append, ih, asked_concat]
    rfl

/-- A switch can be set before any phrase or after it. -/
theorem Phrase.apply_setSwitch (phrase : Phrase) (switch : Switch) (i : Invocation) :
    phrase.apply (setSwitch i switch) = setSwitch (phrase.apply i) switch := by
  cases phrase with
  | plain other written named =>
    cases switch
    all_goals
      cases other
      all_goals rfl
  | _ =>
    cases switch
    all_goals rfl

/-- Phrases of different options can be taken in in either order. -/
theorem Phrase.apply_comm {g h : Phrase} (hne : g.option ≠ h.option) (i : Invocation) :
    h.apply (g.apply i) = g.apply (h.apply i) := by
  cases g with
  | plain switch => exact h.apply_setSwitch switch i
  | _ =>
    cases h with
    | plain switch => exact (Phrase.apply_setSwitch _ switch i).symm
    -- Two values go to different places, or they are of one option.
    | _ => simp_all [Phrase.option, Phrase.apply]

/-! ### Reading -/

/-- An option with a value takes the next argument, whatever it looks like. -/
theorem parseFrom_valued (option : ValueOption) (value : String) :
    parseFrom i (option.name :: value :: rest) =
      match setValue i option value with
      | .ok i => parseFrom i rest
      | .error fault => .error fault := by
  rw [parseFrom.eq_def]
  cases hvalue : setValue i option value
  all_goals simp only [Word.ofArgument_name, hvalue]

theorem parseFrom_plain {switch : Switch} {arg : String} (h : arg ∈ switch.names) :
    parseFrom i (arg :: rest) = parseFrom (setSwitch i switch) rest := by
  rw [parseFrom.eq_def]
  simp only [Word.ofArgument_of_mem_names h]

/-- A phrase is taken in. -/
theorem parseFrom_phrase (phrase : Phrase) :
    parseFrom i (phrase.arguments ++ rest) = parseFrom (phrase.apply i) rest := by
  cases phrase with
  | config path => exact parseFrom_valued .config path
  | writeConfig path => exact parseFrom_valued .writeConfig path
  | seconds text length reads =>
    refine (parseFrom_valued .seconds text).trans ?_
    rw [setValue, reads]
    rfl
  | plain switch written named => exact parseFrom_plain named

/-- So are several. -/
theorem parseFrom_line (phrases : List Phrase) :
    parseFrom i (line phrases ++ rest) = parseFrom (phrases.foldl Phrase.apply i) rest := by
  induction phrases generalizing i with
  | nil => rfl
  | cons phrase phrases ih =>
    rw [line, List.flatMap_cons, List.append_assoc, parseFrom_phrase]
    exact ih

/-- A halt decides, whatever has been asked for and whatever comes behind. -/
theorem parseFrom_halt (halt : Halt) (hrest : halt.Before rest) :
    parseFrom i (halt.arguments ++ rest) = halt.outcome := by
  cases halt with
  | help written named =>
    rw [parseFrom.eq_def]
    simp only [Halt.arguments, List.singleton_append, Word.ofArgument_of_mem_helpNames named]
    rfl
  | missingValue option =>
    obtain rfl : rest = [] := hrest
    rw [parseFrom.eq_def]
    simp only [Halt.arguments, List.append_nil, Word.ofArgument_name]
    rfl
  | badSeconds text fault reads =>
    refine (parseFrom_valued .seconds text).trans ?_
    rw [setValue, reads]
    rfl
  | unknownArgument arg unknown =>
    rw [parseFrom.eq_def]
    simp only [Halt.arguments, List.singleton_append, Word.ofArgument_of_not_mem unknown]
    rfl

theorem parse_line (phrases : List Phrase) :
    parse (line phrases) = .ok (.run (.asked phrases)) := by
  have hline : parseFrom {} (line phrases ++ []) = parseFrom (phrases.foldl Phrase.apply {}) [] :=
    parseFrom_line phrases
  rw [List.append_nil, foldl_apply] at hline
  rw [parse, hline, parseFrom]

theorem parse_halt (phrases : List Phrase) (halt : Halt) (hrest : halt.Before rest) :
    parse (line phrases ++ halt.arguments ++ rest) = halt.outcome := by
  rw [parse, List.append_assoc, parseFrom_line, parseFrom_halt halt hrest]

/-! ### Every list of arguments -/

/-- The arguments are phrases to their end, or phrases up to a halt. -/
def Divided (args : List String) : Prop :=
  (∃ phrases, args = line phrases) ∨
    ∃ (phrases : List Phrase) (halt : Halt) (rest : List String),
      args = line phrases ++ halt.arguments ++ rest ∧ halt.Before rest

theorem divided_halt (halt : Halt) (hrest : halt.Before rest) : Divided (halt.arguments ++ rest) :=
  Or.inr ⟨[], halt, rest, rfl, hrest⟩

theorem Divided.cons (h : Divided rest) (phrase : Phrase) : Divided (phrase.arguments ++ rest) := by
  rcases h with ⟨phrases, rfl⟩ | ⟨phrases, halt, behind, rfl, hbehind⟩
  · exact Or.inl ⟨phrase :: phrases, rfl⟩
  · refine Or.inr ⟨phrase :: phrases, halt, behind, ?_, hbehind⟩
    rw [line, line, List.flatMap_cons]
    simp only [List.append_assoc]

/-- Every list of arguments can be divided. A phrase takes one argument or two, so what is left of
the list is not always its tail. -/
theorem divided (args : List String) : Divided args := by
  match args with
  | [] => exact Or.inl ⟨[], rfl⟩
  | arg :: rest =>
    rcases spelled arg with ⟨option, rfl⟩ | ⟨switch, hnamed⟩ | hhelp | hunknown
    · match rest with
      | [] => exact divided_halt (.missingValue option) rfl
      | value :: rest =>
        cases option with
        | config => exact (divided rest).cons (.config value)
        | writeConfig => exact (divided rest).cons (.writeConfig value)
        | seconds =>
          cases hreads : Decimal.readSingle value with
          | ok length => exact (divided rest).cons (.seconds value length hreads)
          | error fault => exact divided_halt (.badSeconds value fault hreads) trivial
    · exact (divided rest).cons (.plain switch arg hnamed)
    · exact divided_halt (.help arg hhelp) trivial
    · exact divided_halt (.unknownArgument arg hunknown) trivial
termination_by args.length

theorem Halt.outcome_ne_run (halt : Halt) (i : Invocation) : halt.outcome ≠ .ok (.run i) := by
  cases halt
  all_goals simp [outcome]

/-- A command line that is accepted consists of phrases and asks for what they ask for. -/
theorem parse_eq_run_iff {args : List String} :
    parse args = .ok (.run i) ↔ ∃ phrases, args = line phrases ∧ i = .asked phrases := by
  constructor
  · intro hrun
    rcases divided args with ⟨phrases, rfl⟩ | ⟨phrases, halt, rest, rfl, hrest⟩
    · rw [parse_line, Except.ok.injEq, Request.run.injEq] at hrun
      exact ⟨phrases, rfl, hrun.symm⟩
    · rw [parse_halt phrases halt hrest] at hrun
      exact absurd hrun (halt.outcome_ne_run i)
  · rintro ⟨phrases, rfl, rfl⟩
    exact parse_line phrases

/-- Phrases of different options can change places, also in front of arguments that are refused. -/
theorem parse_swap (before : List Phrase) {g h : Phrase} (hne : g.option ≠ h.option) :
    parse (line (before ++ [g, h]) ++ rest) = parse (line (before ++ [h, g]) ++ rest) := by
  simp only [parse, parseFrom_line, List.foldl_append, List.foldl_cons, List.foldl_nil]
  rw [Phrase.apply_comm hne]

/-- The grammar of the command line. It is accepted exactly if it consists of phrases, and then asks
for the last value of each option and for the switches that occur, so that neighbouring phrases of
different options can change places. Any other list of arguments has a first halt behind phrases,
which decides the outcome, whatever comes behind it. -/
theorem grammar_decides :
    (∀ args i, parse args = .ok (.run i) ↔
      ∃ phrases, args = line phrases ∧ i = Invocation.asked phrases) ∧
    (∀ (before : List Phrase) (g h : Phrase) (rest : List String), g.option ≠ h.option →
      parse (line (before ++ [g, h]) ++ rest) = parse (line (before ++ [h, g]) ++ rest)) ∧
    (∀ args, (∃ phrases, args = line phrases) ∨
      ∃ (phrases : List Phrase) (halt : Halt) (rest : List String),
        args = line phrases ++ halt.arguments ++ rest ∧ halt.Before rest) ∧
    ∀ (phrases : List Phrase) (halt : Halt) (rest : List String), halt.Before rest →
      parse (line phrases ++ halt.arguments ++ rest) = halt.outcome := by
  refine ⟨?_, ?_, divided, ?_⟩
  · intro args i
    exact parse_eq_run_iff
  · intro before g h rest hne
    exact parse_swap before hne
  · intro phrases halt rest hrest
    exact parse_halt phrases halt hrest

/-- An option can be a value, the last value counts, and a missing value is found at the end of the
line only. -/
theorem option_taken_as_value :
    parse ["--config", "--help", "-v", "--config", "a"]
      = .ok (.run { config := some "a", verbose := true }) ∧
    parse ["-v", "--config", "--help", "--config", "a"]
      = .ok (.run { config := some "a", verbose := true }) ∧
    parse ["--dac", "--config"] = .error (.missingValue .config) ∧
    parse ["--dac", "-h", "--config"] = .ok .help := by
  obtain ⟨haccepts, hswap, -, hhalts⟩ := grammar_decides
  have hverbose : "-v" ∈ Switch.verbose.names := by decide
  have hdac : "--dac" ∈ Switch.dac.names := by decide
  have hne : Word.valued .config ≠ .plain .verbose := by decide
  have hfirst : parse ["--config", "--help", "-v", "--config", "a"]
      = .ok (.run { config := some "a", verbose := true }) :=
    (haccepts _ _).mpr
      ⟨[.config "--help", .plain .verbose "-v" hverbose, .config "a"], rfl, rfl⟩
  have hswapped := hswap [] (.config "--help") (.plain .verbose "-v" hverbose) ["--config", "a"]
    hne
  exact ⟨hfirst, hswapped.symm.trans hfirst,
    hhalts [.plain .dac "--dac" hdac] (.missingValue .config) [] rfl,
    hhalts [.plain .dac "--dac" hdac] (.help "-h" (by decide)) ["--config"] trivial⟩

end CommandLine

end Chiptune
