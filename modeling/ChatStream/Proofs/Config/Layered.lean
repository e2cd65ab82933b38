import Mathlib
import ChatStream.Config.Layers
import ChatStream.Proofs.Request.Parameters

/-!
# One setting, four layers

Settings come from the command line, the environment, a file and the defaults. Each layer is read
into a `Layer` on its own, which says for each setting what the layer supplies, if anything. Layers
are put one over the other (`Layer.or`), and for each setting the highest that supplies it wins
(`load_layered`).

A file supplies settings key by key (`setting?`). A section may be written as a table or as the
array of its values, so a key counts by its name or by its place.
-/

namespace ChatStream

open Decimal Text Toml

namespace Config

/-- What a layer supplies of each setting. -/
@[ext]
structure Layer where
  endpoint : Option String := none
  connectTimeoutMillis : Option Nat := none
  /-- A layer can also supply that there is no limit. -/
  requestTimeoutSecs : Option (Option Nat) := none
  model : Option String := none
  temperature : Option Single := none
  topP : Option Single := none
  topK : Option Nat := none
  repeatPenalty : Option Single := none
  systemPrompt : Option String := none
  frameRate : Option Nat := none
  contextLimit : Option Nat := none
  nearFraction : Option Single := none
  directive : Option String := none
  keepCancelled : Option Bool := none
  historyMaxMessages : Option Nat := none
  historyMaxBytes : Option Nat := none
  marker : Option String := none
  announcement : Option String := none
  deriving DecidableEq

/-- What a file has for a key, given by its section, its place there and its name, before anyone
reads it. Nothing if the section is none. -/
def entry? (document : List (String × Toml.Value)) (title : String) (place : Nat) (key : String) :
    Option (Option Toml.Value) :=
  match document.find? (·.1 = title) with
  | none => some none
  | some (_, .table members) => some ((members.find? (·.1 = key)).map (·.2))
  | some (_, .array items) => some items[place]?
  | some (_, .moment) => some none
  | some _ => none

/-- What a file supplies for a key. Nothing if it has something there that cannot be read. -/
def setting? {α : Type} (document : List (String × Toml.Value)) (title : String) (place : Nat)
    (key : String) (read : Toml.Value → Option α) : Option (Option α) := do
  match ← entry? document title place key with
  | none => some none
  | some v => (read v).map some

namespace Layer

/-- One layer over another. -/
def or (high low : Layer) : Layer where
  endpoint := high.endpoint.or low.endpoint
  connectTimeoutMillis := high.connectTimeoutMillis.or low.connectTimeoutMillis
  requestTimeoutSecs := high.requestTimeoutSecs.or low.requestTimeoutSecs
  model := high.model.or low.model
  temperature := high.temperature.or low.temperature
  topP := high.topP.or low.topP
  topK := high.topK.or low.topK
  repeatPenalty := high.repeatPenalty.or low.repeatPenalty
  systemPrompt := high.systemPrompt.or low.systemPrompt
  frameRate := high.frameRate.or low.frameRate
  contextLimit := high.contextLimit.or low.contextLimit
  nearFraction := high.nearFraction.or low.nearFraction
  directive := high.directive.or low.directive
  keepCancelled := high.keepCancelled.or low.keepCancelled
  historyMaxMessages := high.historyMaxMessages.or low.historyMaxMessages
  historyMaxBytes := high.historyMaxBytes.or low.historyMaxBytes
  marker := high.marker.or low.marker
  announcement := high.announcement.or low.announcement

/-- Settings in which the layer replaces what it supplies. -/
def on (l : Layer) (c : Config) : Config where
  endpoint := l.endpoint.getD c.endpoint
  connectTimeoutMillis := l.connectTimeoutMillis.getD c.connectTimeoutMillis
  requestTimeoutSecs := l.requestTimeoutSecs.getD c.requestTimeoutSecs
  model := l.model.getD c.model
  sampling :=
    { temperature := l.temperature.getD c.sampling.temperature
      topP := l.topP.getD c.sampling.topP
      topK := l.topK.getD c.sampling.topK
      repeatPenalty := l.repeatPenalty.getD c.sampling.repeatPenalty }
  systemPrompt := l.systemPrompt.or c.systemPrompt
  frameRate := l.frameRate.getD c.frameRate
  contextLimit := l.contextLimit.getD c.contextLimit
  nearFraction := l.nearFraction.getD c.nearFraction
  directive := l.directive.getD c.directive
  keepCancelled := l.keepCancelled.getD c.keepCancelled
  historyMaxMessages := l.historyMaxMessages.getD c.historyMaxMessages
  historyMaxBytes := l.historyMaxBytes.getD c.historyMaxBytes
  wire :=
    { marker := l.marker.getD c.wire.marker
      announcement := l.announcement.getD c.wire.announcement }
  fromFile := c.fromFile
  origin := c.origin

section
variable (document : List (String × Toml.Value))

def ofServer? : Option Layer := do
  let endpoint ← setting? document "server" 0 "endpoint" readText?
  let connect ← setting? document "server" 1 "connect_timeout_ms" (readNatural? longMax)
  let request ← setting? document "server" 2 "request_timeout_secs" (readNatural? longMax)
  return {
    endpoint
    connectTimeoutMillis := connect
    requestTimeoutSecs := request.map fun n ↦ if n = 0 then none else some n }

def ofGeneration? : Option Layer := do
  let model ← setting? document "generation" 0 "model" readText?
  let temperature ← setting? document "generation" 1 "temperature" readSingle?
  let topP ← setting? document "generation" 2 "top_p" readSingle?
  let topK ← setting? document "generation" 3 "top_k" (readNatural? wordMax)
  let repeatPenalty ← setting? document "generation" 4 "repeat_penalty" readSingle?
  let systemPrompt ← setting? document "generation" 5 "system_prompt" readText?
  return {
    model, topK, repeatPenalty, systemPrompt
    temperature := temperature.map clampTemperature
    topP := topP.map clampTopP }

def ofRender? : Option Layer := do
  let frameRate ← setting? document "render" 0 "frame_rate_hz" (readNatural? wordMax)
  return { frameRate }

def ofBudget? : Option Layer := do
  let contextLimit ← setting? document "budget" 0 "context_limit" (readNatural? wordMax)
  let nearFraction ← setting? document "budget" 1 "near_limit_fraction" readSingle?
  let directive ← setting? document "budget" 2 "summarize_directive" readText?
  return { contextLimit, nearFraction, directive }

def ofSession? : Option Layer := do
  let keepCancelled ← setting? document "session" 0 "persist_partial_on_cancel" readTruth?
  let historyMaxMessages ← setting? document "session" 1 "max_messages" (readNatural? longMax)
  let historyMaxBytes ← setting? document "session" 2 "max_content_bytes" (readNatural? longMax)
  return { keepCancelled, historyMaxMessages, historyMaxBytes }

def ofWire? : Option Layer := do
  let marker ← setting? document "wire" 0 "event_prefix" readText?
  let announcement ← setting? document "wire" 1 "start_sentinel" readText?
  return { marker, announcement }

/-- A layer with another section, if that can be read. -/
def joined? (layer : Layer) (s? : Option Layer) : Option Layer := s?.map (·.or layer)

/-- The sections of a settings file, which have no setting in common. -/
def ofSections : List (Option Layer) :=
  [ofServer? document, ofGeneration? document, ofRender? document, ofBudget? document,
    ofSession? document, ofWire? document]

/-- What a settings file supplies; nothing if any of its sections cannot be read. -/
def ofDocument? : Option Layer :=
  (ofSections document).foldlM joined? {}

end

/-- What is found where the settings file should be. There may be no file, and there may be one that
is no settings file. -/
def ofFile : Option FileState → Except LoadError (Option Layer)
  | none => .ok none
  | some .missing => .ok none
  | some .unreadable => .error .read
  | some (.text s) =>
    match (Toml.parse? s).bind ofDocument? with
    | some layer => .ok (some layer)
    | none => .error .parse

/-- What a variable supplies that has to be read: nothing if it cannot be read, blanks around it
aside. -/
def readVariable? {α : Type} (env : Environment) (name : String) (read : String → Option α) :
    Option α :=
  (env.get? name).bind fun raw ↦ read (trim raw)

/-- What the environment supplies. -/
def ofEnvironment (env : Environment) : Layer where
  endpoint := env.get? "HEARTH_ENDPOINT"
  model := env.get? "HEARTH_MODEL"
  temperature := (readVariable? env "HEARTH_TEMPERATURE" readFloat?).map clampTemperature
  systemPrompt := env.get? "HEARTH_SYSTEM_PROMPT"
  frameRate := readVariable? env "HEARTH_FRAME_RATE" (readNat? 0x100000000)
  contextLimit := readVariable? env "HEARTH_CONTEXT_LIMIT" (readNat? 0x100000000)
  keepCancelled := (env.get? "HEARTH_PERSIST_PARTIAL").map saysYes

/-- What the command line supplies. -/
def ofOverrides (o : Overrides) : Layer where
  endpoint := o.endpoint
  model := o.model
  systemPrompt := o.systemPrompt
  temperature := o.temperature.map clampTemperature
  frameRate := o.frameRate

end Layer

/-! ## Layers one over the other -/

namespace Layer

theorem on_on (high low : Layer) (c : Config) : high.on (low.on c) = (high.or low).on c := by
  simp [on, or, Option.getD_or, Option.or_assoc]

end Layer

/-- A change by what there may be. -/
def supply {α : Type} (set : α → Config → Config) (a : Option α) (c : Config) : Config :=
  a.elim c (set · c)

/-- A setting that is supplied puts its own layer over the others. -/
theorem supply_over {α : Type} {set : α → Config → Config} {a : Option α} {c d : Config}
    {low : Layer} (hc : c = low.on d) (layer : Option α → Layer) (hnone : layer none = {})
    (hset : ∀ a c, (layer (some a)).on c = set a c) :
    supply set a c = ((layer a).or low).on d := by
  rw [← Layer.on_on, ← hc]
  cases a with
  | none =>
    rw [hnone]
    rfl
  | some a => exact (hset a c).symm

/-! ## The environment -/

/-- The layer is noted if it supplies anything. -/
def Layer.noted (l : Layer) (origin : ConfigOrigin) (c : Config) : Config :=
  { l.on c with origin := if l = {} then c.origin else origin }

theorem Layer.or_eq_empty_iff (high low : Layer) : high.or low = {} ↔ high = {} ∧ low = {} := by
  simp only [Layer.ext_iff, Layer.or, Option.or_eq_none_iff]
  tauto

theorem Layer.noted_noted (high low : Layer) (origin : ConfigOrigin) (c : Config) :
    high.noted origin (low.noted origin c) = (high.or low).noted origin c := by
  have hon : high.on (low.noted origin c) =
      { (high.or low).on c with origin := (low.noted origin c).origin } := by
    rw [← on_on]
    rfl
  rw [noted, hon, noted, noted]
  simp only [or_eq_empty_iff, ite_and]

section
variable {α : Type} {set : α → Config → Config} (layer : Option α → Layer)
  (hnone : layer none = {}) (hsome : ∀ a, layer (some a) ≠ {})
  (hset : ∀ a c, (layer (some a)).on c = set a c)
include hnone hsome hset

theorem supply_noted (origin : ConfigOrigin) (a : Option α) (c : Config) :
    supply (fun a c ↦ { set a c with origin }) a c = (layer a).noted origin c := by
  cases a with
  | none =>
    rw [hnone]
    rfl
  | some a =>
    rw [Layer.noted, if_neg (hsome a), hset]
    rfl

end

/-- A variable that is taken as it is puts its own layer over the others. -/
theorem noted_applyText {env : Environment} {name : String} {set : String → Config → Config}
    {c : Logged} {d : Config} {low : Layer} (hc : c.1 = low.noted .environment d)
    (layer : Option String → Layer) (hnone : layer none = {}) (hsome : ∀ a, layer (some a) ≠ {})
    (hset : ∀ a c, (layer (some a)).on c = set a c) :
    (applyText env name set c).1 = ((layer (env.get? name)).or low).noted .environment d := by
  rw [← Layer.noted_noted, ← hc, ← supply_noted layer hnone hsome hset, applyText]
  cases env.get? name <;> rfl

theorem noted_applyRead {α : Type} {env : Environment} {name : String} {read : String → Option α}
    {set : α → Config → Config} {c : Logged} {d : Config} {low : Layer}
    (hc : c.1 = low.noted .environment d) (layer : Option α → Layer) (hnone : layer none = {})
    (hsome : ∀ a, layer (some a) ≠ {}) (hset : ∀ a c, (layer (some a)).on c = set a c) :
    (applyRead env name read set c).1 =
      ((layer (Layer.readVariable? env name read)).or low).noted .environment d := by
  rw [← Layer.noted_noted, ← hc, ← supply_noted layer hnone hsome hset, applyRead,
    Layer.readVariable?]
  cases env.get? name with
  | none => rfl
  | some raw =>
    dsimp only [Option.bind_some]
    cases read (trim raw) <;> rfl

theorem applyEnvironment_fst (env : Environment) (c : Logged) :
    (applyEnvironment env c).1 = (Layer.ofEnvironment env).noted .environment c.1 := by
  have hstart : c.1 = ({} : Layer).noted .environment c.1 := rfl
  rw [applyEnvironment]
  refine (noted_applyText (noted_applyRead (noted_applyRead (noted_applyText (noted_applyRead
    (noted_applyText (noted_applyText hstart
      (fun a ↦ { endpoint := a }) rfl nofun fun _ _ ↦ rfl)
      (fun a ↦ { model := a }) rfl nofun fun _ _ ↦ rfl)
      (fun a ↦ { temperature := a.map clampTemperature }) rfl nofun fun _ _ ↦ rfl)
      (fun a ↦ { systemPrompt := a }) rfl nofun fun _ _ ↦ rfl)
      (fun a ↦ { frameRate := a }) rfl nofun fun _ _ ↦ rfl)
      (fun a ↦ { contextLimit := a }) rfl nofun fun _ _ ↦ rfl)
      (fun a ↦ { keepCancelled := a.map saysYes }) rfl nofun fun _ _ ↦ rfl).trans ?_
  congr 1
  simp [Layer.or, Layer.ofEnvironment]

/-! ## A settings file -/

section
variable (document : List (String × Toml.Value))

/-- Gives a section to its setters, from a place on. -/
def settings (title : String) : Nat → List (String × Setter) → Config → Option Config
  | _, [], c => some c
  | place, (key, set) :: setters, c => do
    let found ← entry? document title place key
    let c ← found.elim (some c) (set · c)
    settings title (place + 1) setters c

theorem settings_setter {α : Type} (title : String) (place : Nat) (key : String)
    (read : Toml.Value → Option α) (set : α → Config → Config) (setters : List (String × Setter))
    (c : Config) :
    settings document title place ((key, setter read set) :: setters) c =
      (setting? document title place key read).bind fun a ↦
        settings document title (place + 1) setters (supply set a c) := by
  rw [settings, setting?]
  cases entry? document title place key with
  | none => rfl
  | some found =>
    cases found with
    | none => rfl
    | some v =>
      simp only [Option.bind_eq_bind, Option.bind_some, Option.elim_some, setter]
      cases read v <;> rfl

theorem settings_of_none {title : String} (h : document.find? (·.1 = title) = none) (place : Nat)
    (setters : List (String × Setter)) (c : Config) :
    settings document title place setters c = some c := by
  induction setters generalizing place with
  | nil => rfl
  | cons s setters ih =>
    rw [settings, entry?, h]
    exact ih (place + 1)

section
variable {document} {title name : String}

theorem settings_table {members : List (String × Toml.Value)}
    (h : document.find? (·.1 = title) = some (name, .table members)) (place : Nat)
    (setters : List (String × Setter)) (c : Config) :
    settings document title place setters c = applyMembers setters members c := by
  induction setters generalizing place c with
  | nil => rfl
  | cons s setters ih =>
    rw [settings, entry?, h, applyMembers, List.foldlM_cons]
    simp only [Option.bind_eq_bind, Option.bind_some, ih]
    cases members.find? (·.1 = s.1) <;> rfl

theorem settings_array {items : List Toml.Value}
    (h : document.find? (·.1 = title) = some (name, .array items)) (place : Nat)
    (setters : List (String × Setter)) (c : Config) :
    settings document title place setters c = applyItems setters (items.drop place) c := by
  induction setters generalizing place c with
  | nil => rfl
  | cons s setters ih =>
    rw [settings, entry?, h]
    simp only [Option.bind_eq_bind, Option.bind_some, ih]
    cases hitem : items[place]? with
    | none =>
      have hle : items.length ≤ place := List.getElem?_eq_none_iff.mp hitem
      rw [List.drop_eq_nil_of_le hle, List.drop_eq_nil_of_le (Nat.le_succ_of_le hle)]
      simp only [applyItems, List.zip_nil_right]
      rfl
    | some v =>
      rw [List.drop_eq_getElem?_toList_append (i := place), hitem]
      rfl

theorem settings_moment (h : document.find? (·.1 = title) = some (name, .moment)) (place : Nat)
    (setters : List (String × Setter)) (c : Config) :
    settings document title place setters c = some c := by
  induction setters generalizing place with
  | nil => rfl
  | cons s setters ih =>
    rw [settings, entry?, h]
    exact ih (place + 1)

theorem settings_eq_applySection {v : Toml.Value}
    (h : document.find? (·.1 = title) = some (name, v)) {setters : List (String × Setter)}
    (hsetters : setters ≠ []) (c : Config) :
    settings document title 0 setters c = applySection setters v c := by
  obtain ⟨s, setters, rfl⟩ := List.exists_cons_of_ne_nil hsetters
  cases v with
  | table members => exact settings_table h 0 _ c
  | array items => exact settings_array h 0 _ c
  | moment => exact settings_moment h 0 _ c
  | _ =>
    rw [settings, entry?, h]
    rfl

end

theorem applyMembers_sections (c : Config) :
    applyMembers (sections.map fun (name, setters) ↦ (name, applySection setters)) document c =
      sections.foldlM (fun c s ↦ settings document s.1 0 s.2 c) c := by
  have hsetters : ∀ s ∈ sections, s.2 ≠ [] := by
    simp [sections]
  rw [applyMembers, List.foldlM_map]
  generalize sections = sections at hsetters
  induction sections generalizing c with
  | nil => rfl
  | cons s sections ih =>
    rw [List.forall_mem_cons] at hsetters
    rw [List.foldlM_cons, List.foldlM_cons]
    dsimp only
    cases hfound : document.find? (·.1 = s.1) with
    | none =>
      rw [settings_of_none document hfound]
      exact ih c hsetters.2
    | some found =>
      rw [settings_eq_applySection hfound hsetters.1]
      exact bind_congr fun c ↦ ih c hsetters.2

theorem settings_nil (title : String) (place : Nat) (c : Config) :
    settings document title place [] c = some c := rfl

/-- Every section puts its own layer over the others. -/
theorem settings_sections :
    List.Forall₂ (fun (s : String × List (String × Setter)) (layer? : Option Layer) ↦
      ∀ c, settings document s.1 0 s.2 c = layer?.map (·.on c)) sections
      (Layer.ofSections document) := by
  refine .cons ?server (.cons ?generation (.cons ?render (.cons ?budget (.cons ?session
    (.cons ?wire .nil)))))
  all_goals
    intro c
    simp only [settings_setter, settings_nil, Layer.ofServer?, Layer.ofGeneration?,
      Layer.ofRender?, Layer.ofBudget?, Layer.ofSession?, Layer.ofWire?, Option.bind_eq_bind,
      Option.map_bind, Function.comp_def, Option.pure_def, Option.map_some]
  case server =>
    refine Option.bind_congr fun endpoint _ ↦ Option.bind_congr fun connect _ ↦
      Option.bind_congr fun request _ ↦ ?_
    cases endpoint <;> cases connect <;> cases request <;> rfl
  case generation =>
    refine Option.bind_congr fun model _ ↦ Option.bind_congr fun temperature _ ↦
      Option.bind_congr fun topP _ ↦ Option.bind_congr fun topK _ ↦
        Option.bind_congr fun repeatPenalty _ ↦ Option.bind_congr fun systemPrompt _ ↦ ?_
    have hstart : c = ({} : Layer).on c := rfl
    refine congrArg some ((supply_over (supply_over (supply_over (supply_over (supply_over
      (supply_over hstart
        (fun a ↦ { model := a }) rfl fun _ _ ↦ rfl)
        (fun a ↦ { temperature := a.map clampTemperature }) rfl fun _ _ ↦ rfl)
        (fun a ↦ { topP := a.map clampTopP }) rfl fun _ _ ↦ rfl)
        (fun a ↦ { topK := a }) rfl fun _ _ ↦ rfl)
        (fun a ↦ { repeatPenalty := a }) rfl fun _ _ ↦ rfl)
        (fun a ↦ { systemPrompt := a }) rfl fun _ _ ↦ rfl).trans ?_)
    congr 1
    simp [Layer.or]
  case render =>
    refine Option.bind_congr fun frameRate _ ↦ ?_
    cases frameRate <;> rfl
  case budget =>
    refine Option.bind_congr fun contextLimit _ ↦ Option.bind_congr fun nearFraction _ ↦
      Option.bind_congr fun directive _ ↦ ?_
    cases contextLimit <;> cases nearFraction <;> cases directive <;> rfl
  case session =>
    refine Option.bind_congr fun keepCancelled _ ↦ Option.bind_congr fun maxMessages _ ↦
      Option.bind_congr fun maxBytes _ ↦ ?_
    cases keepCancelled <;> cases maxMessages <;> cases maxBytes <;> rfl
  case wire =>
    refine Option.bind_congr fun marker _ ↦ Option.bind_congr fun announcement _ ↦ ?_
    cases marker <;> cases announcement <;> rfl

theorem foldlM_on {σ : Type} {f : Config → σ → Option Config} {l : List σ}
    {layers : List (Option Layer)}
    (h : List.Forall₂ (fun s layer? ↦ ∀ c, f c s = layer?.map (·.on c)) l layers) (low : Layer)
    (c : Config) :
    l.foldlM f (low.on c) = (layers.foldlM Layer.joined? low).map (·.on c) := by
  induction h generalizing low with
  | nil => rfl
  | @cons s layer? l layers hs hrest ih =>
    rw [List.foldlM_cons, List.foldlM_cons, hs, Layer.joined?]
    cases layer? with
    | none => rfl
    | some layer =>
      simp only [Option.map_some, Option.bind_eq_bind, Option.bind_some, Layer.on_on]
      exact ih (layer.or low)

end

theorem applyFile?_eq (text : String) (c : Config) :
    applyFile? text c =
      ((Toml.parse? text).bind Layer.ofDocument?).map fun layer ↦
        { layer.on c with fromFile := true, origin := .file } := by
  rw [applyFile?]
  cases Toml.parse? text with
  | none => rfl
  | some document =>
    have hfold : sections.foldlM (fun c s ↦ settings document s.1 0 s.2 c) c =
        (Layer.ofDocument? document).map (·.on c) :=
      foldlM_on (settings_sections document) {} c
    simp only [Option.bind_eq_bind, Option.bind_some]
    rw [applyMembers_sections, hfold]
    cases Layer.ofDocument? document <;> rfl

/-- Where settings come from: the highest layer that supplies any. -/
def originOf (given env : Layer) (file : Option Layer) : ConfigOrigin :=
  if given ≠ {} then .commandLine
  else if env ≠ {} then .environment
  else if file.isSome then .file
  else .default

theorem loadFile_eq (file : Option FileState) :
    (loadFile file).map (·.1) = (Layer.ofFile file).map fun layer ↦
      { (layer.getD {}).on {} with
        fromFile := layer.isSome
        origin := if layer.isSome then .file else .default } := by
  match file with
  | none => rfl
  | some .missing => rfl
  | some .unreadable => rfl
  | some (.text s) =>
    rw [loadFile, Layer.ofFile, applyFile?_eq]
    cases (Toml.parse? s).bind Layer.ofDocument? <;> rfl

theorem apply_eq (o : Overrides) (c : Config) :
    o.apply c = (Layer.ofOverrides o).noted .commandLine c := by
  have hempty : o.isEmpty = true ↔ Layer.ofOverrides o = {} := by
    simp only [Overrides.isEmpty, Bool.and_eq_true, Option.isNone_iff_eq_none, Layer.ext_iff,
      Layer.ofOverrides, Option.map_eq_none_iff]
    tauto
  rw [Overrides.apply, if_congr hempty rfl rfl]
  rfl

theorem map_apply_load (file : Option FileState) (env : Environment) (o : Overrides) :
    (load file env).map (fun c ↦ o.apply c.1) = (Layer.ofFile file).map fun layer ↦
      let given := Layer.ofOverrides o
      let env := Layer.ofEnvironment env
      (given.or (env.or (layer.getD {}))).on
        { fromFile := layer.isSome, origin := originOf given env layer } := by
  have hload : (load file env).map (fun c ↦ o.apply c.1) =
      ((loadFile file).map (·.1)).map fun c ↦
        (Layer.ofOverrides o).noted .commandLine
          ((Layer.ofEnvironment env).noted .environment c) := by
    rw [load]
    cases loadFile file with
    | error e => rfl
    | ok c => simp only [Except.map, apply_eq, applyEnvironment_fst]
  rw [hload, loadFile_eq]
  cases Layer.ofFile file with
  | error e => rfl
  | ok layer =>
    refine congrArg Except.ok ?_
    dsimp only
    rw [← Layer.on_on, ← Layer.on_on, originOf, ite_not, ite_not]
    rfl

/-! ## What is read into a layer -/

/-- A number that was moved into an interval. What is none stays so. -/
def Clamped (lo hi : ℚ) (x y : Single) : Prop :=
  match x with
  | .finite s m e =>
    y.isFinite = true ∧ y.value = max lo (min hi (Binary.finite s m e : Single).value)
  | .infinite below => y.isFinite = true ∧ y.value = if below then lo else hi
  | .nan => y = .nan

theorem clamped_tenths {k l : Nat} (hkl : k ≤ l) (hl : l < 2 ^ 24) (x : Single) :
    Clamped k l x (Binary.clamp (tenths (k * 10)) (tenths (l * 10)) x) := by
  obtain ⟨hlo, hk⟩ := value_tenths (hkl.trans_lt hl)
  obtain ⟨hhi, hl⟩ := value_tenths hl
  rw [← hk, ← hl]
  obtain ⟨s, m, e, hlow⟩ := Binary.exists_of_isFinite hlo
  obtain ⟨s', m', e', hhigh⟩ := Binary.exists_of_isFinite hhi
  cases x with
  | finite t n j =>
    refine Binary.value_clamp hlo hhi rfl ?_
    rw [hk, hl]
    exact_mod_cast hkl
  | infinite below =>
    rw [hlow, hhigh]
    cases below with
    | true => exact ⟨rfl, rfl⟩
    | false => exact ⟨rfl, rfl⟩
  | nan =>
    rw [hlow, hhigh]
    rfl

/-- One text is another but for the case of its letters. -/
def IsCasingOf (s t : String) : Prop :=
  List.Forall₂ (fun c d ↦ c = d ∨ c = d.toUpper) s.toList t.toList

theorem toLower_eq_iff {c d : Char} (hd : d.isLower = true) :
    c.toLower = d ↔ c = d ∨ c = d.toUpper := by
  have hlower : ¬d.isUpper = true := Char.not_isUpper_of_isLower hd
  by_cases hc : c.isUpper = true
  · constructor
    · rintro rfl
      rw [Char.toUpper_toLower_eq_toUpper, Char.toUpper_eq_of_not_isLower]
      · exact .inr rfl
      · exact Char.not_isLower_of_isUpper hc
    · rintro (rfl | rfl)
      · exact absurd hc hlower
      · rw [Char.toLower_toUpper_eq_toLower, Char.toLower_eq_of_not_isUpper hlower]
  · rw [Char.toLower_eq_of_not_isUpper hc]
    have hupper : d.toUpper.isUpper = true := by
      rw [Char.isUpper_toUpper_eq_isAlpha, Char.isAlpha, hd, Bool.or_true]
    constructor
    · exact .inl
    · rintro (rfl | rfl)
      · rfl
      · exact absurd hupper hc

theorem map_toLower_eq_iff {l m : List Char} (hm : ∀ d ∈ m, d.isLower = true) :
    l.map Char.toLower = m ↔ List.Forall₂ (fun c d ↦ c = d ∨ c = d.toUpper) l m := by
  induction m generalizing l with
  | nil => rw [List.map_eq_nil_iff, List.forall₂_nil_right_iff]
  | cons d m ih =>
    rw [List.forall_mem_cons] at hm
    cases l with
    | nil => simp
    | cons c l =>
      rw [List.map_cons, List.cons.injEq, List.forall₂_cons, ih hm.2, toLower_eq_iff hm.1]

theorem saysYes_iff (s : String) : saysYes s = true ↔ s = "1" ∨ IsCasingOf s "true" := by
  have hcasing : s.toList.map Char.toLower = "true".toList ↔ IsCasingOf s "true" :=
    map_toLower_eq_iff (by simp)
  rw [saysYes, Bool.or_eq_true, decide_eq_true_iff, decide_eq_true_iff, hcasing]

/-- Of every setting the highest layer counts that supplies it: the command line before the
environment, the environment before the file, the file before the defaults. No layer changes what it
does not supply. -/
theorem load_layered :
    (∀ file env o, (load file env).map (fun c ↦ o.apply c.1) = (Layer.ofFile file).map fun layer ↦
      let given := Layer.ofOverrides o
      let env := Layer.ofEnvironment env
      (given.or (env.or (layer.getD {}))).on
        { fromFile := layer.isSome, origin := originOf given env layer }) ∧
      (∀ x, Clamped 0 2 x (clampTemperature x)) ∧ (∀ x, Clamped 0 1 x (clampTopP x)) ∧
        ∀ s, saysYes s = true ↔ s = "1" ∨ IsCasingOf s "true" := by
  refine ⟨map_apply_load, fun x ↦ ?_, fun x ↦ ?_, saysYes_iff⟩
  · exact_mod_cast clamped_tenths (k := 0) (l := 2) (by decide) (by decide) x
  · exact_mod_cast clamped_tenths (k := 0) (l := 1) (by decide) (by decide) x

end Config

end ChatStream
