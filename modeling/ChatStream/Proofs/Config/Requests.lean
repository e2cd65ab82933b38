import ChatStream.Proofs.Config.Ranges
import ChatStream.Proofs.Request.Body
import ChatStream.Proofs.Session.Requests

/-!
# Requests of resolved settings

From settings of all layers to the body that is sent, the sampling parameters are handed on as they
are. So the body has a number for each that is one, and it can be read back if all of them are
(`requests_of_load`). The settings do not see to that: a NaN stays one in every layer, a penalty may
be infinite, and accepting settings does not look at these parameters at all.
-/

namespace ChatStream

open Decimal Json

/-- What a request says about its sampling parameters. -/
structure Request.Carries (r : Request) (p : Sampling) : Prop where
  sampling : r.sampling = p
  temperature : Holds (r.bodyMember? "temperature") p.temperature
  topP : Holds (r.bodyMember? "top_p") p.topP
  topK : r.bodyMember? "top_k" = some (.numeral (.ofInt p.topK)) ∧
    Number.ofNumeral? (.ofInt p.topK) = some (.int p.topK)
  repeatPenalty : Holds (r.bodyMember? "repeat_penalty") p.repeatPenalty
  /-- Finite parameters are read back, together with everything else as it was. -/
  readable : p.isFinite = true → ∃ temperature topP repeatPenalty, Request.parse? r.body =
    some { r with sampling := { p with temperature, topP, repeatPenalty } }
  unreadable : p.isFinite = false → Request.parse? r.body = none

theorem Request.carries {r : Request} (h : r.sampling.Fits) : r.Carries r.sampling := by
  obtain ⟨htemperature, htopP, htopK, hrepeatPenalty⟩ := bodyMember?_sampling h
  have hword : r.sampling.topK < wordBound := h.topK.trans_lt (by decide)
  exact ⟨rfl, htemperature, htopP, ⟨htopK, ofNumeral?_ofInt hword⟩, hrepeatPenalty,
    parse?_body_of_isFinite h, parse?_body_of_not_isFinite h⟩

/-- Every request that is handed out has the parameters of the settings. -/
theorem Controller.sampling_of_mem_requests {σ : Type} (archive : Archive σ) (store : σ)
    (config : Config) (transportName : String) {ops : List (Op σ)} {r : Request}
    (hr : r ∈ ((new archive store config transportName).run ops).requests) :
    r.sampling = config.sampling := by
  induction ops using List.reverseRecOn with
  | nil => cases hr
  | append_singleton ops op ih =>
    obtain ⟨-, hsame | ⟨r', ⟨pre, p, -, -, hfor⟩, hnew⟩⟩ :=
      (orders_run archive store config transportName ops).apply op
    · rw [run_append, run_singleton, hsame] at hr
      exact ih hr
    · rw [run_append, run_singleton, hnew, List.mem_append, List.mem_singleton] at hr
      rcases hr with hr | rfl
      · exact ih hr
      · exact hfor.sampling

namespace Config

/-- **Requests of resolved settings.** Whatever is in a file and in the environment and on the
command line, temperature and threshold are in their intervals or no numbers, and every request has
a number for each parameter that is one. It can be read back if and only if all of them are. -/
theorem requests_of_load {file : Option FileState} {env : Environment} {c : Config}
    {log : List LogLine} (hload : load file env = .ok (c, log)) (o : Overrides) {σ : Type}
    (archive : Archive σ) (store : σ) (transportName : String) (ops : List (Op σ)) :
    (o.apply c).sampling.Ranged ∧
      (∀ p, { o.apply c with sampling := p }.validate = (o.apply c).validate) ∧
      ∀ r ∈ ((Controller.new archive store (o.apply c) transportName).run ops).requests,
        r.Carries (o.apply c).sampling := by
  have hranged := ranged_sampling_apply o (ranged_sampling_load hload)
  refine ⟨hranged, fun p ↦ rfl, fun r hr ↦ ?_⟩
  have hsampling := Controller.sampling_of_mem_requests archive store _ transportName hr
  have hcarries := Request.carries (r := r) (hsampling ▸ hranged.fits)
  rwa [hsampling] at hcarries

/-- A threshold and a penalty from a file, and a temperature from the environment that the command
line replaces. -/
theorem requests_of_load_layers :
    let c : Config :=
      { sampling := ⟨.nan, tenths 5, 40, .infinite false⟩
        fromFile := true
        origin := .environment }
    let o : Overrides := { temperature := some (tenths 31) }
    load (some (.text "[generation]\ntop_p = 0.5\nrepeat_penalty = inf\n"))
        [("HEARTH_TEMPERATURE", " NaN ")] =
      .ok (c, [{ level := .info, message := "Loaded configuration from file" }]) ∧
    ∃ r, ((Controller.new History.archive {} (o.apply c) "http").run
        [.start { message := "hi" } { now := 0, wake := .answer (.ok 0) }]).requests = [r] ∧
      r.Carries ⟨tenths 20, tenths 5, 40, .infinite false⟩ := by
  intro c o
  have hload : load (some (.text "[generation]\ntop_p = 0.5\nrepeat_penalty = inf\n"))
      [("HEARTH_TEMPERATURE", " NaN ")] =
        .ok (c, [{ level := .info, message := "Loaded configuration from file" }]) := by
    decide +kernel
  have hsampling : (o.apply c).sampling = ⟨tenths 20, tenths 5, 40, .infinite false⟩ := by
    decide +kernel
  have hrequests : ((Controller.new History.archive {} (o.apply c) "http").run
      [.start { message := "hi" } { now := 0, wake := .answer (.ok 0) }]).requests =
        [Controller.buildRequest (o.apply c) { message := "hi" } false] := by
    decide +kernel
  have hcarries := (requests_of_load hload o History.archive {} "http"
    [.start { message := "hi" } { now := 0, wake := .answer (.ok 0) }]).2.2
      (Controller.buildRequest (o.apply c) { message := "hi" } false)
      (by rw [hrequests]; exact List.mem_singleton_self _)
  rw [hsampling] at hcarries
  exact ⟨hload, _, hrequests, hcarries⟩

/-- A NaN in a file is accepted, and the body with it cannot be read. -/
theorem not_readable_of_nan :
    ¬∀ (file : Option FileState) (env : Environment) (o : Overrides) (c : Config)
      (log : List LogLine) (ops : List (Op History)), load file env = .ok (c, log) →
      (o.apply c).validate = .ok () →
        ∀ r ∈ ((Controller.new History.archive {} (o.apply c) "http").run ops).requests,
          (Request.parse? r.body).isSome = true := by
  intro h
  have hread := h (some (.text "[generation]\ntop_p = nan\n")) [] {}
    { sampling := { Sampling.default with topP := .nan }, fromFile := true, origin := .file }
    [{ level := .info, message := "Loaded configuration from file" }]
    [.start { message := "hi" } { now := 0, wake := .answer (.ok 0) }]
    (by decide +kernel) (by decide +kernel)
  revert hread
  decide +kernel

end Config

end ChatStream
