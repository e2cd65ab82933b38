import Mathlib.Tactic
import ChatStream.CommandLine.Run
import ChatStream.Proofs.Config.Layered

/-!
# The settings file that nobody names

There is a default path for a settings file (`Config.defaultPath?`). A command line that names no
file does not look there, so whatever a user has put there makes no difference.

What difference it would make is told by the same command line with the file named in it. It reads
as the same invocation but for the file (`CommandLine.parse_config_cons`): an option in front stands
in the place before the command, where it is the last that anyone finds (`Place.scan_naming`). The
two come to the same only where there is no file or where both are refused
(`default_file_not_read`), for settings remember that a file was read.
-/

namespace ChatStream

/-! ## Naming a settings file -/

namespace Given

/-- The options of a place in which a settings file is named before all others. -/
def naming (g : Given) (path : String) : Given := g ++ [(.config, path)]

variable {g g' : Given} {path : String}

theorem get?_naming_of_ne {o : OptionName} (ho : o ≠ .config) :
    (g.naming path).get? o = g.get? o := by
  rw [get?, naming, List.find?_append, get?]
  have hnone : [(OptionName.config, path)].find? (·.1 = o) = none := by
    simpa using ho.symm
  rw [hnone, Option.or_none]

theorem get?_naming_config (h : g.get? .config = none) :
    (g.naming path).get? .config = some path := by
  rw [get?, Option.map_eq_none_iff] at h
  rw [get?, naming, List.find?_append, h]
  rfl

theorem add?_naming (path : String) {o : OptionName} {v : String} (hadd : g.add? o v = some g')
    (hsilent : g'.get? .config = none) :
    o ≠ .config ∧ g.get? .config = none ∧ (g.naming path).add? o v = some (g'.naming path) := by
  rw [add?] at hadd
  split_ifs at hadd with hbad
  obtain rfl := Option.some.inj hadd
  have ho : o ≠ .config := by
    rintro rfl
    simp [get?] at hsilent
  have hsilent' : g.get? .config = none := by
    simpa [get?, List.find?_cons, ho] using hsilent
  refine ⟨ho, hsilent', ?_⟩
  rw [add?, get?_naming_of_ne ho, if_neg hbad]
  rfl

end Given

namespace Place

/-- A place in which a settings file is named before all other options. -/
def naming (p : Place) (path : String) : Place := { p with given := p.given.naming path }

/-- A place in which no settings file is named. -/
structure Silent (p : Place) : Prop where
  given : p.given.get? .config = none
  forValue : p.waiting ≠ some (.forValue .config)
  toLook : ∀ v, p.waiting ≠ some (.toLook .config v)

variable {p q : Place} {path : String}

theorem settle?_naming (path : String) (h : p.settle? = some q) (hq : q.Silent) :
    p.Silent ∧ (p.naming path).settle? = some (q.naming path) := by
  obtain ⟨command, given, waiting, words⟩ := p
  match waiting with
  | none =>
    obtain rfl := Option.some.inj h
    exact ⟨hq, rfl⟩
  | some (.forValue o) => cases h
  | some (.toLook o v) =>
    obtain ⟨g, hg, rfl⟩ := Option.map_eq_some_iff.mp h
    obtain ⟨ho, hgiven, hadd⟩ := Given.add?_naming path hg hq.given
    refine ⟨⟨hgiven, nofun, ?_⟩, ?_⟩
    · rintro v' ⟨⟩
      exact ho rfl
    · rw [settle?, naming]
      dsimp only
      rw [hadd]
      rfl

theorem waiting_of_settle? (h : p.settle? = some q) : q.waiting = none := by
  obtain ⟨command, given, waiting, words⟩ := p
  match waiting with
  | none =>
    obtain rfl := Option.some.inj h
    rfl
  | some (.forValue o) => cases h
  | some (.toLook o v) =>
    obtain ⟨g, hg, rfl⟩ := Option.map_eq_some_iff.mp h
    rfl

theorem takeOption?_naming (path : String) {o? : Option OptionName} {value : Option String}
    (hwaiting : p.waiting = none) (h : p.takeOption? o? value = some q) (hq : q.Silent) :
    p.Silent ∧ (p.naming path).takeOption? o? value = some (q.naming path) := by
  rw [takeOption?, Option.bind_eq_some_iff] at h
  obtain ⟨o, rfl, h⟩ := h
  split_ifs at h with hask
  have hp (hgiven : p.given.get? .config = none) : p.Silent :=
    ⟨hgiven, by simp [hwaiting], by simp [hwaiting]⟩
  cases value with
  | some v =>
    obtain ⟨g, hg, rfl⟩ := Option.map_eq_some_iff.mp h
    obtain ⟨-, hgiven, hadd⟩ := Given.add?_naming path hg hq.given
    refine ⟨hp hgiven, ?_⟩
    rw [takeOption?, Option.bind_some, naming, if_neg hask]
    dsimp only
    rw [hadd]
    rfl
  | none =>
    obtain rfl := Option.some.inj h
    refine ⟨hp hq.given, ?_⟩
    rw [takeOption?, Option.bind_some, naming, if_neg hask]
    rfl

theorem takeWord?_naming (path : String) {w : String} (h : p.takeWord? w = some q) (hq : q.Silent) :
    p.Silent ∧ (p.naming path).takeWord? w = some (q.naming path) := by
  rw [takeWord?] at h
  by_cases hroom : p.words.length < (if p.command = some .ask then 1 else 0)
  · rw [if_pos hroom] at h
    obtain rfl := Option.some.inj h
    refine ⟨⟨hq.given, hq.forValue, hq.toLook⟩, ?_⟩
    rw [takeWord?, naming]
    exact if_pos hroom
  · rw [if_neg hroom] at h
    cases h

/-- Options that come before are named last, and what follows is scanned in the same way. -/
theorem scan_naming {args rest : List String} (h : p.scan args = .ok q rest) (hq : q.Silent) :
    p.Silent ∧ (p.naming path).scan args = .ok (q.naming path) rest := by
  induction args generalizing p with
  | nil =>
    obtain ⟨rfl, rfl⟩ := Scanned.ok.inj h
    exact ⟨hq, rfl⟩
  | cons a args ih =>
    have hcommand : (p.naming path).command = p.command := rfl
    have hwaiting : (p.naming path).waiting = p.waiting := rfl
    -- An option is taken when what waited before it is settled.
    have hoption {o? : Option OptionName} {value : Option String} {p' p'' : Place}
        (hsettle : p.settle? = some p') (htake : p'.takeOption? o? value = some p'')
        (hscan : p''.scan args = .ok q rest) :
        p.Silent ∧ (p.naming path).settle? = some (p'.naming path) ∧
          (p'.naming path).takeOption? o? value = some (p''.naming path) ∧
          (p''.naming path).scan args = .ok (q.naming path) rest := by
      obtain ⟨hsilent, hscan'⟩ := ih hscan
      obtain ⟨hsilent', htake'⟩ :=
        takeOption?_naming path (waiting_of_settle? hsettle) htake hsilent
      obtain ⟨hp, hsettle'⟩ := settle?_naming path hsettle hsilent'
      exact ⟨hp, hsettle', htake', hscan'⟩
    rw [scan] at h ⊢
    rw [hwaiting, hcommand]
    split at h
    case h_1 o v hwait harg =>
      obtain ⟨hsilent, hscan⟩ := ih h
      refine ⟨⟨hsilent.given, ?_, ?_⟩, hscan⟩
      · rw [hwait]
        rintro ⟨⟩
        exact hsilent.toLook v rfl
      · simp [hwait]
    case h_2 hwait harg =>
      split_ifs at h with hcmd
      · obtain ⟨rfl, rfl⟩ := Scanned.ok.inj h
        simp only [if_pos hcmd]
        exact ⟨⟨hq.given, hq.forValue, hq.toLook⟩, rfl⟩
      · simp only [if_neg hcmd]
        split at h
        case h_1 p' hword =>
          obtain ⟨p'', hsettle, hword⟩ := Option.bind_eq_some_iff.mp hword
          obtain ⟨hsilent, hscan⟩ := ih h
          obtain ⟨hsilent', hword'⟩ := takeWord?_naming path hword hsilent
          obtain ⟨hp, hsettle'⟩ := settle?_naming path hsettle hsilent'
          rw [hsettle', Option.bind_some, hword']
          exact ⟨hp, hscan⟩
        case h_2 => cases h
    case h_3 harg =>
      split_ifs at h with hcmd
      obtain ⟨rfl, rfl⟩ := Scanned.ok.inj h
      simp only [if_neg hcmd]
      exact ⟨⟨hq.given, hq.forValue, hq.toLook⟩, rfl⟩
    case h_4 name value harg =>
      split at h
      case h_1 => cases h
      case h_2 p' hsettle =>
        split_ifs at h with hhelp hversion
        split at h
        case h_1 p'' htake =>
          obtain ⟨hp, hsettle', htake', hscan⟩ := hoption hsettle htake h
          simp only [hsettle', if_neg hhelp, htake']
          exact ⟨hp, (if_neg hversion).trans hscan⟩
        case h_2 => cases h
    case h_5 name value harg =>
      split at h
      case h_1 => cases h
      case h_2 p' hsettle =>
        split_ifs at h with hhelp hversion
        split at h
        case h_1 p'' htake =>
          obtain ⟨hp, hsettle', htake', hscan⟩ := hoption hsettle htake h
          simp only [hsettle', if_neg hhelp, htake']
          exact ⟨hp, (if_neg hversion).trans hscan⟩
        case h_2 => cases h

end Place

/-! ## Command lines -/

theorem Argument.of_long {s : String} {rest name value : List Char}
    (hs : s.toList = '-' :: '-' :: rest) (hspan : rest.span (· ≠ '=') = (name, '=' :: value)) :
    Argument.of s = .long (String.ofList name) (some (String.ofList value)) := by
  cases rest with
  | nil => cases hspan
  | cons c rest =>
    rw [Argument.of, hs]
    simp only [hspan]

theorem Argument.of_config (path : String) :
    Argument.of ("--config=" ++ path) = .long "config" (some path) := by
  have hlist : ("--config=" ++ path).toList = '-' :: '-' :: ("config=".toList ++ path.toList) :=
    String.toList_append
  have hspan : ("config=".toList ++ path.toList).span (· ≠ '=') =
      ("config".toList, '=' :: path.toList) := rfl
  rw [Argument.of_long hlist hspan, String.ofList_toList, String.ofList_toList]

theorem invocation?_naming (path : String) {env : Environment} {command : Command}
    {before after : Given} {i : Invocation} (h : invocation? env command before after = some i)
    (hnone : i.configPath = none) :
    before.get? .config = none ∧ after.get? .config = none ∧
      invocation? env command (before.naming path) after =
        some { i with configPath := some path } := by
  rw [invocation?] at h
  dsimp only at h
  split_ifs at h with hblank
  obtain rfl := Option.some.inj h
  dsimp only at hnone
  rw [Option.or_eq_none_iff, Option.or_eq_none_iff] at hnone
  obtain ⟨⟨hafter, hbefore⟩, hnamed⟩ := hnone
  refine ⟨hbefore, hafter, ?_⟩
  have hother (o : OptionName) (ho : o ≠ .config) :
      (before.naming path).get? o = before.get? o := Given.get?_naming_of_ne ho
  rw [invocation?]
  simp only [hafter, Given.get?_naming_config hbefore, hnamed]
  rw [hother .endpoint nofun, hother .model nofun, hother .temperature nofun,
    hother .frameRate nofun]
  rfl

namespace CommandLine

variable {env : Environment} {args : List String} {i : Invocation}

/-- What the invocation of a command line is made of: the place before the command, and the place
after it. -/
structure ReadsAs (env : Environment) (args : List String) (i : Invocation)
    (before after : Place) (name : CommandName) (word : String) (rest left : List String) :
    Prop where
  scanned : ∃ p : Place, ({ command := none } : Place).scan args = .ok p rest ∧ p.words = [word] ∧
    p.settle? = some before
  named : CommandName.ofWord? word = some name
  followed : ∃ p : Place, ({ command := some name } : Place).scan rest = .ok p left ∧
    p.settle? = some after
  invocation : (command? name after.given after.words).bind
    (invocation? env · before.given after.given) = some i

theorem parse_eq_run_iff : parse env args = .run i ↔
    ∃ before after name word rest left,
      ReadsAs env args i before after name word rest left := by
  constructor
  · intro h
    rw [parse] at h
    split at h
    case h_4 before rest hscan =>
      split at h
      case h_1 => split at h <;> cases h
      case h_2 word hword hwords =>
        split at h
        case h_1 => cases h
        case h_2 name hname =>
          split at h
          case h_1 => cases h
          case h_2 after left hafter =>
            dsimp only at h
            split at h
            case h_1 i' hi =>
              obtain rfl := CommandLine.run.inj h
              simp only [Option.bind_eq_bind, Option.bind_eq_some_iff] at hi
              obtain ⟨after', hsettle, before', hsettle', command, hcommand, hinvocation⟩ := hi
              refine ⟨before', after', name, word, rest, left, ⟨before, hscan, hwords, hsettle'⟩,
                hname, ⟨after, hafter, hsettle⟩, ?_⟩
              rw [hcommand]
              exact hinvocation
            case h_2 => cases h
          case h_3 => cases h
      case h_3 => cases h
    all_goals cases h
  · rintro ⟨before, after, name, word, rest, left, ⟨p, hscan, hwords, hsettle⟩, hname,
      ⟨p', hscan', hsettle'⟩, hinvocation⟩
    have hword : word ≠ "help" := by
      rintro rfl
      cases hname
    rw [parse, hscan]
    simp only [hwords]
    split
    case h_1 hnone => cases hname.symm.trans hnone
    case h_2 name' hsome =>
      obtain rfl := Option.some.inj (hname.symm.trans hsome)
      simp only [hscan', hsettle, hsettle', Option.bind_eq_bind, Option.bind_some, hinvocation]

theorem parse_config_cons (h : parse env args = .run i) (hnone : i.configPath = none)
    {path : String} (hpath : path ≠ "") :
    parse env (("--config=" ++ path) :: args) = .run { i with configPath := some path } := by
  have hstart : ({ command := none } : Place).scan (("--config=" ++ path) :: args) =
      (({ command := none } : Place).naming path).scan args := by
    have htake : ({ command := none } : Place).takeOption? (OptionName.ofLong? "config")
        (some path) = some (({ command := none } : Place).naming path) := by
      have hconfig : OptionName.ofLong? "config" = some .config := by decide
      have hadd : Given.add? [] .config path = some (Given.naming [] path) := by
        simp [Given.add?, Given.get?, OptionName.accepts, hpath, Given.naming]
      rw [hconfig, Place.takeOption?, Option.bind_some, if_neg (by decide)]
      dsimp only
      rw [hadd]
      rfl
    rw [Place.scan, Argument.of_config]
    dsimp only [Place.settle?]
    rw [htake]
    rfl
  rw [parse_eq_run_iff] at h ⊢
  obtain ⟨before, after, name, word, rest, left, ⟨p, hscan, hwords, hsettle⟩, hname, hafter,
    hinvocation⟩ := h
  obtain ⟨command, hcommand, hinvocation⟩ := Option.bind_eq_some_iff.mp hinvocation
  obtain ⟨hbefore, -, hnaming⟩ := invocation?_naming path hinvocation hnone
  have hsilent : before.Silent := by
    have hwaiting := Place.waiting_of_settle? hsettle
    exact ⟨hbefore, by simp [hwaiting], by simp [hwaiting]⟩
  obtain ⟨hp, hsettle'⟩ := Place.settle?_naming path hsettle hsilent
  obtain ⟨-, hscan'⟩ := Place.scan_naming hscan hp
  refine ⟨before.naming path, after, name, word, rest, left,
    ⟨p.naming path, hstart.trans hscan', hwords, hsettle'⟩, hname, hafter, ?_⟩
  rw [hcommand]
  exact hnaming

end CommandLine

/-! ## Resolved settings -/

/-- Why an invocation is refused. -/
inductive ConfigRefusal
  /-- The settings file cannot be read. -/
  | read
  /-- It is no settings file. -/
  | parse
  /-- The settings are no good. -/
  | invalid

/-- A refusal is reported by an outcome. -/
def ConfigRefusal.Reported : ConfigRefusal → Outcome → Prop
  | .read, o => ∃ path why, o = failed "Failed to load configuration"
      ["Failed to read config file at " ++ path ++ ": " ++ why, why]
  | .parse, o => o = failed "Failed to load configuration"
      ["Failed to parse TOML config: TOML parse error", "TOML parse error"]
  | .invalid, o => ∃ f : Config.Fault, o = failed "Invalid configuration" [f.message]

/-- Two invocations come to the same: the same settings, or refusals of the same kind. -/
inductive ComeToTheSame : Except Outcome Config → Except Outcome Config → Prop
  | settings (c : Config) : ComeToTheSame (.ok c) (.ok c)
  | refusals {r : ConfigRefusal} {o o' : Outcome} (h : r.Reported o) (h' : r.Reported o') :
    ComeToTheSame (.error o) (.error o')

theorem ComeToTheSame.isOk_eq {r r' : Except Outcome Config} (h : ComeToTheSame r r') :
    r.isOk = r'.isOk := by
  cases h <;> rfl

theorem failed_load_ne_invalid (causes causes' : List String) :
    failed "Failed to load configuration" causes ≠ failed "Invalid configuration" causes' := by
  intro h
  have herr := congrArg (fun o ↦ o.err.toList[7]?) h
  simp [failed, report, String.toList_append] at herr

theorem ConfigRefusal.eq_invalid {r : ConfigRefusal} {o : Outcome} (hr : r.Reported o)
    (hinvalid : ConfigRefusal.invalid.Reported o) : r = .invalid := by
  obtain ⟨f, rfl⟩ := hinvalid
  cases r with
  | read =>
    obtain ⟨path, why, h⟩ := hr
    exact absurd h.symm (failed_load_ne_invalid _ _)
  | parse => exact absurd hr.symm (failed_load_ne_invalid _ _)
  | invalid => rfl

namespace Invocation

/-- What the layers of an invocation make together, before it is checked. -/
def settings (i : Invocation) (w : Surroundings) : Except LoadError Config :=
  (Config.load ((i.configPath.map w.file).map FileContent.state) w.env).map fun c ↦
    i.overrides.apply c.1

variable {i : Invocation} {w : Surroundings} {c : Config}

theorem resolve_of_ok (h : i.settings w = .ok c) :
    i.resolve w =
      match c.validate with
      | .ok () => .ok c
      | .error f => .error (failed "Invalid configuration" [f.message]) := by
  rw [settings] at h
  rw [resolve]
  cases hload : Config.load ((i.configPath.map w.file).map FileContent.state) w.env with
  | error e =>
    rw [hload] at h
    cases h
  | ok d =>
    rw [hload] at h
    obtain rfl := Except.ok.inj h
    cases hvalid : (i.overrides.apply d.1).validate with
    | ok => simp only [hvalid]
    | error f => simp only [hvalid]

theorem resolve_ok_or_invalid (h : i.settings w = .ok c) :
    i.resolve w = .ok c ∨ ∃ o, i.resolve w = .error o ∧ ConfigRefusal.invalid.Reported o := by
  rw [resolve_of_ok h]
  cases c.validate with
  | ok => exact .inl rfl
  | error f => exact .inr ⟨_, rfl, f, rfl⟩

theorem resolve_of_error {e : LoadError} (h : i.settings w = .error e) :
    ∃ o r, i.resolve w = .error o ∧ ConfigRefusal.Reported r o ∧ r ≠ .invalid := by
  rw [settings] at h
  rw [resolve]
  cases hload : Config.load ((i.configPath.map w.file).map FileContent.state) w.env with
  | error e =>
    cases e with
    | read => exact ⟨_, .read, rfl, ⟨_, _, rfl⟩, nofun⟩
    | parse => exact ⟨_, .parse, rfl, rfl, nofun⟩
  | ok d =>
    rw [hload] at h
    cases h

/-- The settings with no file, or with the file that is named. -/
theorem settings_eq (i : Invocation) (w : Surroundings) :
    i.settings w =
      (Config.Layer.ofFile ((i.configPath.map w.file).map FileContent.state)).map fun layer ↦
        let given := Config.Layer.ofOverrides i.overrides
        let env := Config.Layer.ofEnvironment w.env
        (given.or (env.or (layer.getD {}))).on
          { fromFile := layer.isSome, origin := Config.originOf given env layer } :=
  Config.map_apply_load _ _ _

/-- The command line with a settings file named in it. -/
def naming (i : Invocation) (path : String) : Invocation := { i with configPath := some path }

theorem settings_of_none (hnone : i.configPath = none) (w : Surroundings) :
    ∃ c, i.settings w = .ok c ∧ c.fromFile = false := by
  rw [settings_eq, hnone]
  exact ⟨_, rfl, rfl⟩

theorem settings_naming_of_absent (hnone : i.configPath = none) {path why : String}
    (habsent : w.file path = .absent why) : (i.naming path).settings w = i.settings w := by
  rw [settings_eq, settings_eq, hnone, naming, Option.map_some, habsent]
  rfl

theorem settings_naming_of_present (i : Invocation) {path : String}
    (hpresent : ¬∃ why, w.file path = .absent why) :
    (∃ e, (i.naming path).settings w = .error e) ∨
      ∃ c, (i.naming path).settings w = .ok c ∧ c.fromFile = true := by
  have hstate : (w.file path).state ≠ .missing := by
    cases hcontent : w.file path with
    | absent why => exact absurd ⟨why, hcontent⟩ hpresent
    | unreadable why => exact nofun
    | bytes b =>
      rw [FileContent.state]
      cases Utf8.decode? b <;> exact nofun
  rw [settings_eq, naming, Option.map_some, Option.map_some]
  cases hread : (w.file path).state with
  | missing => exact absurd hread hstate
  | unreadable => exact .inl ⟨_, rfl⟩
  | text s =>
    rw [Config.Layer.ofFile]
    cases (Toml.parse? s).bind Config.Layer.ofDocument? with
    | none => exact .inl ⟨_, rfl⟩
    | some layer => exact .inr ⟨_, rfl, rfl⟩

/-- Naming a file makes a difference unless there is none, or the settings are no good with it and
without it. -/
theorem comeToTheSame_naming_iff (hnone : i.configPath = none) (w : Surroundings) (path : String) :
    ComeToTheSame (i.resolve w) ((i.naming path).resolve w) ↔
      (∃ why, w.file path = .absent why) ∨
        ∃ o o', ConfigRefusal.invalid.Reported o ∧ ConfigRefusal.invalid.Reported o' ∧
          i.resolve w = .error o ∧ (i.naming path).resolve w = .error o' := by
  obtain ⟨c, hc, hfile⟩ := settings_of_none hnone w
  constructor
  · intro hsame
    by_cases habsent : ∃ why, w.file path = .absent why
    · exact .inl habsent
    · refine .inr ?_
      rcases settings_naming_of_present i habsent with ⟨e, he⟩ | ⟨d, hd, hfile'⟩
      · obtain ⟨o', r, hj, hr, hne⟩ := resolve_of_error he
        rw [hj] at hsame
        rcases resolve_ok_or_invalid hc with hi | ⟨o, hi, hinvalid⟩
        · rw [hi] at hsame
          cases hsame
        · rw [hi] at hsame
          cases hsame with
          | refusals ho ho' =>
            obtain rfl := ConfigRefusal.eq_invalid ho hinvalid
            exact absurd (ConfigRefusal.eq_invalid hr ho') hne
      · rcases resolve_ok_or_invalid hc with hi | ⟨o, hi, hinvalid⟩ <;>
          rcases resolve_ok_or_invalid hd with hj | ⟨o', hj, hinvalid'⟩
        · rw [hi, hj] at hsame
          cases hsame
          exact absurd (hfile'.symm.trans hfile) nofun
        · rw [hi, hj] at hsame
          cases hsame
        · rw [hi, hj] at hsame
          cases hsame
        · exact ⟨o, o', hinvalid, hinvalid', hi, hj⟩
  · rintro (⟨why, habsent⟩ | ⟨o, o', hinvalid, hinvalid', hi, hj⟩)
    · have hj : (i.naming path).resolve w = i.resolve w := by
        rw [resolve_of_ok hc, resolve_of_ok ((settings_naming_of_absent hnone habsent).trans hc)]
      rw [hj]
      rcases resolve_ok_or_invalid hc with hi | ⟨o, hi, hinvalid⟩
      · rw [hi]
        exact .settings c
      · rw [hi]
        exact .refusals hinvalid hinvalid
    · rw [hi, hj]
      exact .refusals hinvalid hinvalid'

end Invocation

theorem Config.defaultPath?_ne_empty {env : Environment} {account : Option String} {path : String}
    (h : Config.defaultPath? env account = some path) : path ≠ "" := by
  obtain ⟨base, -, rfl⟩ := Option.map_eq_some_iff.mp h
  rw [Path.join]
  split_ifs <;> simp

/-- The settings file at the default path is not looked at when no file is named. So it would make a
difference to name it, unless there is none, or the settings are no good with it and without it. -/
theorem default_file_not_read {w : Surroundings} {args : List String} {i : Invocation}
    (h : CommandLine.parse w.env args = .run i) (hnone : i.configPath = none)
    (account : Option String) :
    (∀ file, i.resolve { w with file } = i.resolve w) ∧
      ∀ path ∈ Config.defaultPath? w.env account, ∃ j,
        CommandLine.parse w.env (("--config=" ++ path) :: args) = .run j ∧
          (ComeToTheSame (i.resolve w) (j.resolve w) ↔
            (∃ why, w.file path = .absent why) ∨
              ∃ o o', ConfigRefusal.invalid.Reported o ∧ ConfigRefusal.invalid.Reported o' ∧
                i.resolve w = .error o ∧ j.resolve w = .error o') := by
  refine ⟨fun file ↦ ?_, fun path hpath ↦ ⟨i.naming path, ?_, ?_⟩⟩
  · simp only [Invocation.resolve, hnone, Option.map_none]
  · exact CommandLine.parse_config_cons h hnone (Config.defaultPath?_ne_empty hpath)
  · exact Invocation.comeToTheSame_naming_iff hnone w path

/-- A home directory with a settings file that has a blank for a model. -/
def homeWithBlankModel : Surroundings where
  env := [("HOME", "/home/u")]
  file path :=
    if path = "/home/u/.config/hearth/client.toml" then
      .bytes (Utf8.encode "[generation]\nmodel = \" \"\n")
    else .missing

/-- What `ask hi` comes to there. -/
def askHi : Invocation := { command := .ask "hi" none none 64 }

theorem parse_askHi : CommandLine.parse homeWithBlankModel.env ["ask", "hi"] = .run askHi := by
  decide +kernel

theorem default_file_not_read_blank_model :
    CommandLine.parse homeWithBlankModel.env ["ask", "hi"] = .run askHi ∧
      askHi.configPath = none ∧
      (∀ file, askHi.resolve { homeWithBlankModel with file } = askHi.resolve homeWithBlankModel) ∧
        ∀ path ∈ Config.defaultPath? homeWithBlankModel.env none, ∃ j,
          CommandLine.parse homeWithBlankModel.env [("--config=" ++ path), "ask", "hi"] = .run j ∧
            (ComeToTheSame (askHi.resolve homeWithBlankModel) (j.resolve homeWithBlankModel) ↔
              (∃ why, homeWithBlankModel.file path = .absent why) ∨
                ∃ o o', ConfigRefusal.invalid.Reported o ∧ ConfigRefusal.invalid.Reported o' ∧
                  askHi.resolve homeWithBlankModel = .error o ∧
                    j.resolve homeWithBlankModel = .error o') :=
  ⟨parse_askHi, rfl, default_file_not_read parse_askHi rfl none⟩

/-- The default file is not honoured: with it named the settings are refused for their model, and
without they are accepted. -/
theorem not_comeToTheSame_of_default_file :
    ¬∀ w args i account path j, CommandLine.parse w.env args = .run i → i.configPath = none →
      Config.defaultPath? w.env account = some path →
      CommandLine.parse w.env (("--config=" ++ path) :: args) = .run j →
      ComeToTheSame (i.resolve w) (j.resolve w) := by
  intro h
  have hpath : Config.defaultPath? homeWithBlankModel.env none =
      some "/home/u/.config/hearth/client.toml" := by
    decide +kernel
  have hparse : CommandLine.parse homeWithBlankModel.env
      ["--config=" ++ "/home/u/.config/hearth/client.toml", "ask", "hi"] =
        .run (askHi.naming "/home/u/.config/hearth/client.toml") := by
    decide +kernel
  have hsame := (h homeWithBlankModel _ _ _ _ _ parse_askHi rfl hpath hparse).isOk_eq
  have haccepted : (askHi.resolve homeWithBlankModel).isOk = true := by decide +kernel
  have hrefused : ((askHi.naming "/home/u/.config/hearth/client.toml").resolve
      homeWithBlankModel).isOk = false := by
    decide +kernel
  exact Bool.noConfusion (haccepted.symm.trans (hsame.trans hrefused))

end ChatStream
