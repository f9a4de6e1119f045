/-
# What a configuration holds during an exchange

A script that runs on a configuration asks and is answered, and may make every question
depend on the answers so far. `Reaches` is one such run up to some moment: the exchanges
that took place, what is left of the script, and the configuration as it is then. All that
can be asked of the configuration at that moment is settled by the one before the first
exchange and by the values that were written since: an option has the value that was last
written to it (`options_of_reaches`), is still of its kind, and a question that was refused
is not noticed.
-/
import Coverage.Proofs.Config.Scripts

namespace Coverage

/-- A question to a configuration, with the answer to it. -/
inductive ConfigExchange where
  | got (name : String) (answer : Except OptionError OptionValue)
  | set (name : String) (value : OptionValue) (answer : Except OptionError Unit)

namespace ConfigExchange

/-- The value that an exchange wrote to an option, if it was accepted. -/
def written? (name : String) : ConfigExchange → Option OptionValue
  | set other value (.ok ()) => if other = name then some value else none
  | _ => none

/-- The value that exchanges wrote to an option last. -/
def lastWritten? (name : String) (exchanges : List ConfigExchange) : Option OptionValue :=
  (exchanges.filterMap (written? name)).getLast?

theorem lastWritten?_concat (name : String) (exchanges : List ConfigExchange)
    (exchange : ConfigExchange) :
    lastWritten? name (exchanges ++ [exchange]) =
      (exchange.written? name).or (lastWritten? name exchanges) := by
  rw [lastWritten?, lastWritten?, List.filterMap_append, List.getLast?_append]
  cases h : exchange.written? name with
  | none => rw [List.filterMap_cons_none h, List.filterMap_nil, List.getLast?_nil]
  | some value => rw [List.filterMap_cons_some h, List.filterMap_nil, List.getLast?_singleton]

end ConfigExchange

open ConfigExchange

namespace Config

theorem mem_optionNames_iff {config : Config} {name : String} :
    name ∈ config.optionNames ↔ (config.options.get? name).isSome := SortedMap.mem_keys_iff

theorem get_eq_ok_iff {config : Config} {name : String} {value : OptionValue} :
    config.get name = .ok value ↔ config.options.get? name = some value := by
  rw [get]
  cases config.options.get? name with
  | none => exact iff_of_false (fun h => nomatch h) fun h => nomatch h
  | some current => rw [Except.ok.injEq, Option.some.injEq]

/-- A value is refused for an option that is not recognized, and for one that holds a value
of another kind. -/
theorem set_eq_error_iff {config : Config} {name : String} {value : OptionValue}
    {error : OptionError} :
    config.set name value = .error error ↔
      name ∉ config.optionNames ∧ error = .unknownOption name ∨
        ∃ current, config.get name = .ok current ∧ current.kind ≠ value.kind ∧
          error = .kindMismatch name current.kind value.kind := by
  simp only [mem_optionNames_iff, get_eq_ok_iff]
  rw [set]
  cases config.options.get? name with
  | none => simp [eq_comm]
  | some current =>
    by_cases h : current.kind = value.kind
    · simp [h]
    · simp only [h, if_false, Except.error.injEq, Option.isSome_some, not_true_eq_false,
        false_and, false_or, Option.some.injEq, exists_eq_left', ne_eq, not_false_eq_true,
        true_and]
      exact eq_comm

/-- A value that is accepted is the value of its option, and of no other. -/
theorem options_of_set {config later : Config} {name : String} {value : OptionValue}
    (h : config.set name value = .ok later) (other : String) :
    later.options.get? other = if name = other then some value else config.options.get? other := by
  have hdefine : later = config.define name value := by
    rw [set] at h
    split at h
    · cases h
    · split at h
      · exact (Except.ok.inj h).symm
      · cases h
  rw [hdefine, define, SortedMap.get?_insert]
  by_cases hname : name = other
  · subst hname
    rw [if_pos Std.ReflCmp.compare_self, if_pos rfl]
  · rw [if_neg hname, if_neg]
    exact fun hcompare => hname (Std.LawfulEqCmp.eq_of_compare hcompare).symm

end Config

namespace ConfigScript

variable {α : Type}

/-- A script that started on a configuration came, by some exchanges, to what is left of it
and to the configuration as it is now. -/
inductive Reaches (script : ConfigScript α) (config : Config) :
    List ConfigExchange → ConfigScript α → Config → Prop
  | start : Reaches script config [] script config
  | got {exchanges : List ConfigExchange} {name : String}
      {next : Except OptionError OptionValue → ConfigScript α} {now : Config} :
      Reaches script config exchanges (.get name next) now →
      Reaches script config (exchanges ++ [.got name (now.get name)]) (next (now.get name)) now
  | accepted {exchanges : List ConfigExchange} {name : String} {value : OptionValue}
      {next : Except OptionError Unit → ConfigScript α} {now later : Config} :
      Reaches script config exchanges (.set name value next) now →
      now.set name value = .ok later →
      Reaches script config (exchanges ++ [.set name value (.ok ())]) (next (.ok ())) later
  | refused {exchanges : List ConfigExchange} {name : String} {value : OptionValue}
      {next : Except OptionError Unit → ConfigScript α} {now : Config} {error : OptionError} :
      Reaches script config exchanges (.set name value next) now →
      now.set name value = .error error →
      Reaches script config (exchanges ++ [.set name value (.error error)]) (next (.error error))
        now

section Reaches

variable {script rest : ConfigScript α} {config now : Config} {exchanges : List ConfigExchange}

/-- What is left of a script goes on to the end of the script. -/
theorem run_of_reaches (h : script.Reaches config exchanges rest now) :
    rest.run now = script.run config := by
  induction h with
  | start => rfl
  | got _ ih => exact ih
  | accepted _ hset ih =>
    rw [← ih, run, hset]
  | refused _ hset ih =>
    rw [← ih, run, hset]

/-- A script comes to its end. -/
theorem exists_reaches_run (h : script.Reaches config exchanges rest now) :
    ∃ all, script.Reaches config all (.done (rest.run now).1) (rest.run now).2 := by
  induction rest generalizing exchanges now with
  | done result => exact ⟨exchanges, h⟩
  | get name next ih => exact ih _ h.got
  | set name value next ih =>
    rw [run]
    cases hset : now.set name value with
    | ok later => exact ih _ (h.accepted hset)
    | error error => exact ih _ (h.refused hset)

/-- Options keep their names and kinds at every moment, and the tables of the plug-in
modules stay as they are. -/
theorem sameShape_of_reaches (h : script.Reaches config exchanges rest now) :
    config.SameShape now := by
  induction h with
  | start => exact .refl config
  | got _ ih => exact ih
  | accepted _ hset ih => exact ih.trans (Config.sameShape_of_set hset)
  | refused _ _ ih => exact ih

/-- An option has the value that was last written to it, or the one that it had at first. -/
theorem options_of_reaches (h : script.Reaches config exchanges rest now) (name : String) :
    now.options.get? name = (lastWritten? name exchanges).or (config.options.get? name) := by
  induction h with
  | start => rfl
  | got _ ih =>
    rw [lastWritten?_concat]
    exact ih
  | @accepted _ other value _ _ _ _ hset ih =>
    rw [lastWritten?_concat, Config.options_of_set hset, Option.or_assoc, ← ih, written?]
    split <;> rfl
  | refused _ _ ih =>
    rw [lastWritten?_concat]
    exact ih

theorem get_of_reaches (h : script.Reaches config exchanges rest now) (name : String) :
    now.get name =
      (config.get name).map fun initial => (lastWritten? name exchanges).getD initial := by
  have hnow := options_of_reaches h name
  rw [Config.get, Config.get]
  cases hinitial : config.options.get? name with
  | none =>
    -- An option that is not recognized at first is not recognized later either.
    have hunknown : name ∉ now.optionNames := by
      rw [(sameShape_of_reaches h).optionNames, Config.mem_optionNames_iff, hinitial]
      exact Bool.false_ne_true
    rw [Config.mem_optionNames_iff, Option.not_isSome_iff_eq_none] at hunknown
    rw [hunknown]
    rfl
  | some initial =>
    rw [hnow, hinitial]
    cases lastWritten? name exchanges <;> rfl

theorem branch_of_reaches (h : script.Reaches config exchanges rest now) :
    now.branch = (((lastWritten? "run:branch" exchanges).or
      (config.options.get? "run:branch")).bind OptionValue.asBool?).getD false := by
  rw [← options_of_reaches h, Config.branch]
  cases now.options.get? "run:branch" with
  | none => rfl
  | some value => cases value <;> rfl

/-- A value that is refused leaves every option as it was. -/
theorem get_of_refused {name : String} {value : OptionValue} {error : OptionError}
    {later : Config} {further : ConfigScript α} (h : script.Reaches config exchanges rest now)
    (hlater : script.Reaches config (exchanges ++ [.set name value (.error error)]) further later)
    (other : String) : later.get other = now.get other := by
  rw [get_of_reaches h, get_of_reaches hlater, lastWritten?_concat]
  rfl

end Reaches

/-- A script comes to its end. At every moment of its run the configuration recognizes the
options that it recognized at first, with values of the same kinds, and has the same tables
of plug-in modules. An option has the value that was last written to it, or its first one.
A value is refused just when its option is not recognized or holds a value of another kind,
and then every option stays as it was. Branches are measured when the option for them holds
the truth value that says so. -/
theorem scripts_overwrite_in_kind (script : ConfigScript α) (config : Config) :
    (∃ exchanges,
      script.Reaches config exchanges (.done (script.run config).1) (script.run config).2) ∧
    ∀ exchanges rest now, script.Reaches config exchanges rest now →
      rest.run now = script.run config ∧
      now.optionNames = config.optionNames ∧ now.kinds = config.kinds ∧
      now.modules = config.modules ∧
      (∀ name, now.get name =
        (config.get name).map fun initial => (lastWritten? name exchanges).getD initial) ∧
      (∀ name value error, now.set name value = .error error ↔
        name ∉ config.optionNames ∧ error = .unknownOption name ∨
          ∃ current, now.get name = .ok current ∧ current.kind ≠ value.kind ∧
            error = .kindMismatch name current.kind value.kind) ∧
      (∀ name value error further later,
        script.Reaches config (exchanges ++ [.set name value (.error error)]) further later →
        ∀ other, later.get other = now.get other) ∧
      now.branch = (((lastWritten? "run:branch" exchanges).or
        (config.options.get? "run:branch")).bind OptionValue.asBool?).getD false := by
  refine ⟨exists_reaches_run .start, fun exchanges rest now h => ?_⟩
  have hshape := sameShape_of_reaches h
  refine ⟨run_of_reaches h, hshape.optionNames, hshape.kinds, hshape.modules, get_of_reaches h, ?_,
    fun name value error further later => get_of_refused h, branch_of_reaches h⟩
  intro name value error
  rw [← hshape.optionNames]
  exact Config.set_eq_error_iff

namespace Precision

/-- Two options of different kinds. -/
def config : Config :=
  ⟨SortedMap.ofList [("run:branch", .bool false), ("report:precision", .int 0)], ∅⟩

/-- Turns branches on, then tries a truth value for a number, and asks for what it may have. -/
def script : ConfigScript Unit :=
  .set "run:branch" (.bool true) fun _ =>
    .set "report:precision" (.bool true) fun answer =>
      .get (if answer.toBool then "report:precision" else "run:branch") fun _ => .done ()

/-- What was asked when one value was accepted and the other refused. -/
def exchanges : List ConfigExchange :=
  [.set "run:branch" (.bool true) (.ok ()),
    .set "report:precision" (.bool true) (.error (.kindMismatch "report:precision" .int .bool))]

/-- The refused value is not seen, and the accepted one is. -/
theorem precision_stays :
    (∃ rest now, script.Reaches config exchanges rest now ∧
      now.optionNames = config.optionNames ∧ now.kinds = config.kinds ∧
      now.get "report:precision" = .ok (.int 0) ∧ now.get "run:branch" = .ok (.bool true) ∧
      now.branch = true) ∧
    ∃ all, script.Reaches config all (.done (script.run config).1) (script.run config).2 := by
  obtain ⟨hends, hmoments⟩ := scripts_overwrite_in_kind script config
  have haccepted : config.set "run:branch" (.bool true) =
      .ok (config.define "run:branch" (.bool true)) := rfl
  have hrefused : (config.define "run:branch" (.bool true)).set "report:precision" (.bool true) =
      .error (.kindMismatch "report:precision" .int .bool) := rfl
  have hstart : script.Reaches config [] script config := .start
  have hreaches := (hstart.accepted haccepted).refused hrefused
  obtain ⟨-, hnames, hkinds, -, hget, -, -, hbranch⟩ := hmoments exchanges _ _ hreaches
  exact ⟨⟨_, _, hreaches, hnames, hkinds, hget "report:precision", hget "run:branch", hbranch⟩,
    hends⟩

end Precision

end ConfigScript

end Coverage
