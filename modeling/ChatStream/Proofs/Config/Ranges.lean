import ChatStream.Config.Layers
import ChatStream.Proofs.Request.Parameters

/-!
# Sampling parameters from all layers

Settings come from a file, the environment and the command line, and each may set some of the
sampling parameters. A temperature and a nucleus threshold are moved into their intervals wherever
they come from; a penalty is taken as it is. `Sampling.Ranged` says what is left to rely on: the
first two are in their intervals or no numbers at all, for moving into an interval lets a NaN
through, and the third may be infinite or a NaN as well.

The settings before the first layer are ranged, and every layer leaves them so
(`ranged_sampling_load`, `ranged_sampling_apply`). A layer is a row of changes, most of which have
nothing to do with sampling, so what is proved of a layer is that it keeps whatever each of its
changes keeps.
-/

namespace ChatStream

open Decimal

namespace Config

theorem abs_value_readSingle? {v : Toml.Value} {x : Single} (h : readSingle? v = some x) :
    |x.value| ≤ 2 ^ 128 := by
  cases v with
  | integer n =>
    obtain rfl := Option.some.inj h
    exact abs_value_single_le _ _ Nat.one_pos
  | float y =>
    obtain rfl := Option.some.inj h
    cases y with
    | finite s m e =>
      exact abs_value_single_le _ _ (scaled_snd_pos m Nat.two_pos e)
    | infinite | nan =>
      rw [Binary.convert, Binary.value, abs_zero]
      positivity
  | _ => cases h

theorem le_of_readNatural? {hi n : Nat} {v : Toml.Value} (h : readNatural? hi v = some n) :
    n ≤ hi := by
  cases v with
  | integer k =>
    rw [readNatural?] at h
    split_ifs at h with hk
    obtain rfl := Option.some.inj h
    omega
  | _ => cases h

/-! ## A settings file -/

/-- The setter keeps a property of settings. -/
def Setter.Keeps (P : Config → Prop) (set : Setter) : Prop :=
  ∀ v c c', set v c = some c' → P c → P c'

section
variable {P : Config → Prop}

theorem keeps_setter {α : Type} {read : Toml.Value → Option α} {set : α → Config → Config}
    (h : ∀ v a c, read v = some a → P c → P (set a c)) : Setter.Keeps P (setter read set) := by
  intro v c c' hset hc
  obtain ⟨a, ha, rfl⟩ := Option.map_eq_some_iff.mp hset
  exact h v a c ha hc

theorem of_foldlM {α β : Type} {f : β → α → Option β} {P : β → Prop} {l : List α}
    (h : ∀ a ∈ l, ∀ b b', f b a = some b' → P b → P b') {b b' : β} (hfold : l.foldlM f b = some b')
    (hb : P b) : P b' := by
  induction l generalizing b with
  | nil =>
    obtain rfl := Option.some.inj hfold
    exact hb
  | cons a l ih =>
    rw [List.forall_mem_cons] at h
    rw [List.foldlM_cons, Option.bind_eq_bind, Option.bind_eq_some_iff] at hfold
    obtain ⟨b'', hstep, hrest⟩ := hfold
    exact ih h.2 hrest (h.1 b b'' hstep hb)

variable {setters : List (String × Setter)} {c c' : Config}

theorem keeps_applyMembers (h : ∀ s ∈ setters, s.2.Keeps P) {members : List (String × Toml.Value)}
    (happly : applyMembers setters members c = some c') (hc : P c) : P c' := by
  refine of_foldlM (fun s hs b b' hstep hb ↦ ?_) happly hc
  dsimp only at hstep
  split at hstep
  · exact h s hs _ b b' hstep hb
  · obtain rfl := Option.some.inj hstep
    exact hb

theorem keeps_applyItems (h : ∀ s ∈ setters, s.2.Keeps P) {items : List Toml.Value}
    (happly : applyItems setters items c = some c') (hc : P c) : P c' := by
  refine of_foldlM (fun s hs b b' hstep hb ↦ ?_) happly hc
  exact h s.1 (List.of_mem_zip hs).1 s.2 b b' hstep hb

theorem keeps_applySection (h : ∀ s ∈ setters, s.2.Keeps P) :
    Setter.Keeps P (applySection setters) := by
  intro v c c' happly hc
  cases v with
  | table members => exact keeps_applyMembers h happly hc
  | array items => exact keeps_applyItems h happly hc
  | moment =>
    obtain rfl := Option.some.inj happly
    exact hc
  | _ => cases happly

/-- A file keeps what each key keeps, as long as it is not about the file itself. -/
theorem keeps_applyFile? (h : ∀ entry ∈ sections, ∀ s ∈ entry.2, Setter.Keeps P s.2)
    (hfile : ∀ c, P c → P { c with fromFile := true, origin := .file }) {text : String}
    (happly : applyFile? text c = some c') (hc : P c) : P c' := by
  rw [applyFile?, Option.bind_eq_bind, Option.bind_eq_some_iff] at happly
  obtain ⟨members, -, hmembers⟩ := happly
  rw [Option.bind_eq_bind, Option.bind_eq_some_iff] at hmembers
  obtain ⟨d, hd, hc'⟩ := hmembers
  obtain rfl := Option.some.inj hc'
  refine hfile d (keeps_applyMembers (fun s hs ↦ ?_) hd hc)
  obtain ⟨entry, hentry, rfl⟩ := List.mem_map.mp hs
  exact keeps_applySection (h entry hentry)

end

/-- Every key of a settings file keeps the sampling parameters ranged. -/
theorem ranged_sections : ∀ entry ∈ sections, ∀ s ∈ entry.2,
    Setter.Keeps (fun c ↦ c.sampling.Ranged) s.2 := by
  -- Four keys are about sampling, and the others leave the parameters alone.
  have hother {α : Type} {read : Toml.Value → Option α} {set : α → Config → Config}
      (h : ∀ a c, (set a c).sampling = c.sampling) :
      Setter.Keeps (fun c ↦ c.sampling.Ranged) (setter read set) :=
    keeps_setter fun _ a c _ hc ↦ (h a c).symm ▸ hc
  have hnone : ∀ s ∈ ([] : List (String × Setter)),
      Setter.Keeps (fun c ↦ c.sampling.Ranged) s.2 := nofun
  simp only [sections, List.forall_mem_cons]
  refine ⟨⟨hother fun _ _ ↦ rfl, hother fun _ _ ↦ rfl, hother fun _ _ ↦ rfl, hnone⟩,
    ⟨hother fun _ _ ↦ rfl, ?temperature, ?topP, ?topK, ?repeatPenalty, hother fun _ _ ↦ rfl,
      hnone⟩,
    ⟨hother fun _ _ ↦ rfl, hnone⟩,
    ⟨hother fun _ _ ↦ rfl, hother fun _ _ ↦ rfl, hother fun _ _ ↦ rfl, hnone⟩,
    ⟨hother fun _ _ ↦ rfl, hother fun _ _ ↦ rfl, hother fun _ _ ↦ rfl, hnone⟩,
    ⟨hother fun _ _ ↦ rfl, hother fun _ _ ↦ rfl, hnone⟩, nofun⟩
  case temperature =>
    exact keeps_setter fun _ x c _ hc ↦ { hc with temperature := within_clampTemperature x }
  case topP => exact keeps_setter fun _ x c _ hc ↦ { hc with topP := within_clampTopP x }
  case topK => exact keeps_setter fun _ n c hn hc ↦ { hc with topK := le_of_readNatural? hn }
  case repeatPenalty =>
    exact keeps_setter fun _ x c hx hc ↦ { hc with repeatPenalty := abs_value_readSingle? hx }

/-! ## All layers -/

theorem ranged_loadFile {file : Option FileState} {c : Config} {log : List LogLine}
    (h : loadFile file = .ok (c, log)) : c.sampling.Ranged := by
  have hdefault : ({} : Config).sampling.Ranged := Sampling.ranged_default
  match file with
  | none =>
    cases h
    exact hdefault
  | some .missing =>
    cases h
    exact hdefault
  | some .unreadable => cases h
  | some (.text s) =>
    rw [loadFile] at h
    split at h
    · rename_i d hfile
      cases h
      exact keeps_applyFile? ranged_sections (fun _ hc ↦ hc) hfile hdefault
    · cases h

section
variable {P : Config → Prop} {env : Environment} {name : String} {c : Logged}

/-- A variable keeps what its change keeps, as long as it is not about the layer. -/
theorem keeps_applyText {set : String → Config → Config}
    (h : ∀ s d, P d → P { set s d with origin := .environment }) (hc : P c.1) :
    P (applyText env name set c).1 := by
  rw [applyText]
  split
  · exact h _ _ hc
  · exact hc

theorem keeps_applyRead {α : Type} {read : String → Option α} {set : α → Config → Config}
    (h : ∀ a d, P d → P { set a d with origin := .environment }) (hc : P c.1) :
    P (applyRead env name read set c).1 := by
  rw [applyRead]
  split
  · exact hc
  · split
    · exact h _ _ hc
    · exact hc

end

theorem ranged_applyEnvironment {env : Environment} {c : Logged} (hc : c.1.sampling.Ranged) :
    (applyEnvironment env c).1.sampling.Ranged := by
  have htext {name : String} {set : String → Config → Config} {c : Logged}
      (h : ∀ s d, (set s d).sampling = d.sampling) (hc : c.1.sampling.Ranged) :
      (applyText env name set c).1.sampling.Ranged :=
    keeps_applyText (P := fun d ↦ d.sampling.Ranged) (fun s d hd ↦ (h s d).symm ▸ hd) hc
  have hread {name : String} {set : Nat → Config → Config} {read : String → Option Nat}
      {c : Logged} (h : ∀ n d, (set n d).sampling = d.sampling) (hc : c.1.sampling.Ranged) :
      (applyRead env name read set c).1.sampling.Ranged :=
    keeps_applyRead (P := fun d ↦ d.sampling.Ranged) (fun n d hd ↦ (h n d).symm ▸ hd) hc
  rw [applyEnvironment]
  refine htext (fun _ _ ↦ rfl) (hread (fun _ _ ↦ rfl) (hread (fun _ _ ↦ rfl)
    (htext (fun _ _ ↦ rfl) ?_)))
  refine keeps_applyRead (P := fun d ↦ d.sampling.Ranged) (fun x d hd ↦ ?_)
    (htext (fun _ _ ↦ rfl) (htext (fun _ _ ↦ rfl) hc))
  exact { hd with temperature := within_clampTemperature x }

/-- Loaded settings have ranged sampling parameters. -/
theorem ranged_sampling_load {file : Option FileState} {env : Environment} {c : Config}
    {log : List LogLine} (h : load file env = .ok (c, log)) : c.sampling.Ranged := by
  rw [load] at h
  cases hfile : loadFile file with
  | error e =>
    rw [hfile] at h
    cases h
  | ok d =>
    rw [hfile] at h
    obtain happly : applyEnvironment env d = (c, log) := Except.ok.inj h
    have hranged : (applyEnvironment env d).1.sampling.Ranged :=
      ranged_applyEnvironment (ranged_loadFile hfile)
    rwa [happly] at hranged

end Config

/-- And the command line leaves them so. -/
theorem ranged_sampling_apply (o : Overrides) {c : Config} (hc : c.sampling.Ranged) :
    (o.apply c).sampling.Ranged := by
  refine ⟨?_, hc.topP, hc.topK, hc.repeatPenalty⟩
  rw [Overrides.apply]
  dsimp only
  cases o.temperature with
  | none => exact hc.temperature
  | some x => exact within_clampTemperature x

end ChatStream
