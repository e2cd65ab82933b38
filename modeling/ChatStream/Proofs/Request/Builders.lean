import ChatStream.Proofs.Request.Body

/-!
# Requests as they are built

A request begins with a message and a model, and calls change it before it is sent. Whatever calls
these are, they leave parameters that fit their formats, for a temperature is moved between its
bounds and a whole set of parameters is taken as it is (`fits_built`). So the body of a request that
was built can be read, if only its parameters are numbers, and what is read agrees with what was
built in all but the digits of these numbers (`body_built`).

The names of the members are looked at as they stand in the text. A reader finds a member by its
name, so a name that occurs twice would be refused, and a member that stands for nothing would be
taken for something.
-/

namespace ChatStream

open Json Decimal

namespace Request

/-! ## Calls -/

/-- One call that changes a request before it is sent. -/
inductive Call
  /-- Sets all sampling parameters. -/
  | sampling (p : Sampling)
  /-- Sets the temperature, within its bounds. -/
  | temperature (x : Single)
  /-- Sets the system instruction. -/
  | system (text : String)
  /-- Adds a directive to the system instruction. -/
  | directive (text : String)
  /-- Adds a file. -/
  | attachment (a : Attachment)

namespace Call

/-- The request after a call. -/
def apply (r : Request) : Call → Request
  | .sampling p => { r with sampling := p }
  | .temperature x => r.withTemperature x
  | .system text => { r with system := some text }
  | .directive text => r.appendDirective text
  | .attachment a => { r with attachments := r.attachments ++ [a] }

/-- The parameters that a call sets are of a size that their formats have. -/
def Fits : Call → Prop
  | .sampling p => p.Fits
  | _ => True

/-- The file that a call adds. -/
def attachment? : Call → Option Attachment
  | .attachment a => some a
  | _ => none

/-- Whether a call leaves a system instruction behind. -/
def instructs : Call → Bool
  | .system _ => true
  | .directive _ => true
  | _ => false

variable (r : Request) (call : Call)

theorem message_apply : (apply r call).message = r.message := by
  cases call <;> rfl

theorem model_apply : (apply r call).model = r.model := by
  cases call <;> rfl

theorem attachments_apply :
    (apply r call).attachments = r.attachments ++ call.attachment?.toList := by
  cases call with
  | attachment a => rfl
  | _ => exact (List.append_nil _).symm

theorem isSome_system_apply :
    (apply r call).system.isSome = (r.system.isSome || call.instructs) := by
  cases call with
  | system text | directive text => exact (Bool.or_true _).symm
  | _ => exact (Bool.or_false _).symm

variable {r call}

/-- A call leaves parameters that fit, if it sets none that do not. -/
theorem fits_apply (h : r.sampling.Fits) (hcall : call.Fits) : (apply r call).sampling.Fits := by
  cases call with
  | sampling p => exact hcall
  | temperature x =>
    have htemperature : |(clampTemperature x).value| ≤ 2 ^ 128 :=
      (within_clampTemperature x).abs_value_le (by norm_num) (by norm_num) (by norm_num)
    exact { h with temperature := htemperature }
  | system | directive | attachment => exact h

end Call

/-! ## Requests that were built -/

/-- The request that calls make, one after another, of a message and a model. -/
def built (message model : String) (calls : List Call) : Request :=
  calls.foldl Call.apply { message, model }

section
variable (message model : String) (calls : List Call)

theorem built_concat (call : Call) :
    built message model (calls ++ [call]) = call.apply (built message model calls) := by
  rw [built, List.foldl_append]
  rfl

theorem message_built : (built message model calls).message = message := by
  induction calls using List.reverseRecOn with
  | nil => rfl
  | append_singleton calls call ih => rw [built_concat, Call.message_apply, ih]

theorem model_built : (built message model calls).model = model := by
  induction calls using List.reverseRecOn with
  | nil => rfl
  | append_singleton calls call ih => rw [built_concat, Call.model_apply, ih]

theorem attachments_built :
    (built message model calls).attachments = calls.filterMap Call.attachment? := by
  induction calls using List.reverseRecOn with
  | nil => rfl
  | append_singleton calls call ih =>
    rw [built_concat, Call.attachments_apply, ih, List.filterMap_append, List.filterMap_cons,
      List.filterMap_nil]
    cases call.attachment? <;> rfl

theorem isSome_system_built :
    (built message model calls).system.isSome = calls.any Call.instructs := by
  induction calls using List.reverseRecOn with
  | nil => rfl
  | append_singleton calls call ih =>
    rw [built_concat, Call.isSome_system_apply, ih, List.any_append, List.any_cons, List.any_nil,
      Bool.or_false]

variable {calls}

theorem fits_built (hcalls : ∀ call ∈ calls, call.Fits) :
    (built message model calls).sampling.Fits := by
  induction calls using List.reverseRecOn with
  | nil => exact Sampling.ranged_default.fits
  | append_singleton calls call ih =>
    rw [List.forall_mem_append, List.forall_mem_singleton] at hcalls
    rw [built_concat]
    exact Call.fits_apply (ih hcalls.1) hcalls.2

end

/-! ## Names in a body -/

/-- The names of the members of a body, in their order. -/
def memberNames (r : Request) : List String :=
  ["message", "model", "temperature", "top_p", "top_k", "repeat_penalty"] ++
    (r.system.toList.map fun _ ↦ "system_prompt") ++
    (if r.attachments.isEmpty then [] else ["attachments"])

theorem exists_members (r : Request) :
    ∃ members, r.tree = .object members ∧ members.map Prod.fst = r.memberNames.map some := by
  refine ⟨_, rfl, ?_⟩
  rw [memberNames]
  cases r.system <;> cases r.attachments <;> rfl

theorem nodup_memberNames (r : Request) : r.memberNames.Nodup := by
  rw [memberNames]
  cases r.system <;> cases r.attachments <;> simp

/-- What is absent or empty has no member. -/
theorem mem_memberNames (r : Request) (name : String) :
    name ∈ r.memberNames ↔
      name ∈ ["message", "model", "temperature", "top_p", "top_k", "repeat_penalty"] ∨
        name = "system_prompt" ∧ r.system ≠ none ∨ name = "attachments" ∧ r.attachments ≠ [] := by
  rw [memberNames, List.append_assoc, List.mem_append]
  refine or_congr_right ?_
  cases r.system <;> cases r.attachments <;> simp

/-! ## There and back -/

/-- The body of the request is an object without a name that occurs twice, and with just the members
that there is something to say in. It is read as a request that differs from this one at most in the
digits of its parameters. -/
structure ReadsBack (r : Request) : Prop where
  names : ∃ members, Tree.parse? r.body = some (.object members) ∧
    (members.map Prod.fst).Nodup ∧
    ∀ name, some name ∈ members.map Prod.fst ↔
      name ∈ ["message", "model", "temperature", "top_p", "top_k", "repeat_penalty"] ∨
        name = "system_prompt" ∧ r.system ≠ none ∨ name = "attachments" ∧ r.attachments ≠ []
  read : ∃ r', Request.parse? r.body = some r' ∧ r'.message = r.message ∧ r'.model = r.model ∧
    r'.sampling.topK = r.sampling.topK ∧ r'.system = r.system ∧ r'.attachments = r.attachments

theorem readsBack_of_isFinite {r : Request} (h : r.sampling.Fits)
    (hfinite : r.sampling.isFinite = true) : r.ReadsBack where
  names := by
    obtain ⟨members, htree, hnames⟩ := r.exists_members
    refine ⟨members, (parse?_body h).trans (congrArg some htree), ?_, fun name ↦ ?_⟩
    · rw [hnames]
      exact r.nodup_memberNames.map (Option.some_injective _)
    · rw [hnames, List.mem_map_of_injective (Option.some_injective _), mem_memberNames]
  read := by
    obtain ⟨temperature, topP, repeatPenalty, hread⟩ := parse?_body_of_isFinite h hfinite
    exact ⟨_, hread, rfl, rfl, rfl, rfl, rfl⟩

/-- **Requests come back.** Whatever calls build a request, if its parameters are numbers in the end
then its body can be read, and says the message and the model that it began with, the files in the
order of their calls, and the instruction, which is there if and only if some call left one. -/
theorem body_built (message model : String) (calls : List Call)
    (hcalls : ∀ call ∈ calls, call.Fits)
    (hfinite : (built message model calls).sampling.isFinite = true) :
    (built message model calls).ReadsBack ∧
      (built message model calls).message = message ∧
      (built message model calls).model = model ∧
      (built message model calls).attachments = calls.filterMap Call.attachment? ∧
      ((built message model calls).system = none ↔ ∀ call ∈ calls, call.instructs = false) := by
  refine ⟨readsBack_of_isFinite (fits_built message model hcalls) hfinite,
    message_built message model calls, model_built message model calls,
    attachments_built message model calls, ?_⟩
  rw [← Option.isNone_iff_eq_none, ← Option.not_isSome, isSome_system_built, Bool.not_eq_true',
    List.any_eq_false]
  simp only [Bool.not_eq_true]

/-- An infinite temperature comes down to its bound, and the empty instruction is one. -/
theorem body_built_emptyInstruction :
    (built "a\"\n" "\u2028"
        [.temperature (.infinite false), .attachment ⟨"", "1"⟩, .system "", .attachment ⟨"", "1"⟩]
      ).ReadsBack ∧
      (built "a\"\n" "\u2028"
        [.temperature (.infinite false), .attachment ⟨"", "1"⟩, .system "", .attachment ⟨"", "1"⟩]
      ).system = some "" := by
  refine ⟨(body_built "a\"\n" "\u2028" _ ?_ (by decide +kernel)).1, rfl⟩
  simp [Call.Fits]

end Request

end ChatStream
