import AgentGraph.Models.Contracts

/-! # Routing to one provider

The router maps the legacy names, parses the reference and asks the provider that is
registered under it, if any. Another provider is never tried.
-/
set_option autoImplicit false
namespace AgentGraph.Models

/-- A provider, by its capabilities and what its `complete` answers. -/
structure Provider where
  capabilities : ProviderCapability
  complete : ModelRequest → Except ModelRouterError ModelResponse

abbrev ProviderRegistry := String → Option Provider

/-- The default was parsed when the router was built. -/
structure ModelRouter where
  registry : ProviderRegistry
  default : ModelRef
  default_wellFormed : default.WellFormed

/-- The constructor. -/
def ModelRouter.init (registry : ProviderRegistry) (defaultModelRef : String) : Except ModelRouterError ModelRouter :=
  match h : ModelRef.parse defaultModelRef with
  | .error e => .error e
  | .ok ref => .ok ⟨registry,ref,(ModelRef.parse_iff.mp h).1⟩

/-- The calls that were made of providers, and how the completion ended. -/
structure Completion where
  calls : List (String × ModelRequest)
  result : Except ModelRouterError ModelResponse

def refuse (code : ModelErrorCode) (message : String) : Completion := ⟨[],.error ⟨code,message⟩⟩

/-- The legacy names. -/
def compatibility : List (String × String) :=
  [("local/default","auto://default"),("qwen3-4b-nothink:latest","ollama://qwen3-4b-nothink:latest"),
    ("qwen3:4B","ollama://qwen3:4B"),("qwen3:0.6B","ollama://qwen3:0.6B")]

/-- `_resolve_compatibility`. -/
def resolveCompatibility (value : String) : Except ModelRouterError ModelRef :=
  ModelRef.parse ((compatibility.lookup value).getD value)

/-- The reference that is asked for, with the default for `auto://default`. -/
def ModelRouter.target (router : ModelRouter) (reference : ModelRef) : ModelRef :=
  if reference.provider = "auto" ∧ reference.modelId = "default" then router.default else reference

def ModelRouter.complete (router : ModelRouter) (modelRef : String) (messages : List ModelMessage) : Completion :=
  match resolveCompatibility modelRef with
  | .error e => ⟨[],.error e⟩
  | .ok reference =>
    let reference := router.target reference
    match router.registry reference.provider with
    | none => refuse .providerUnavailable "Requested provider is unavailable"
    | some provider =>
      if !provider.capabilities.chat then refuse .configurationError "Provider does not support chat"
      else if messages.any (fun message => !message.images.isEmpty) && !provider.capabilities.vision then
        refuse .visionCapabilityMissing "Provider does not support vision"
      else
        let request : ModelRequest := ⟨reference,messages⟩
        ⟨[(reference.provider,request)],provider.complete request⟩

/-- A registered provider that can take the messages. -/
structure Provider.Takes (provider : Provider) (messages : List ModelMessage) : Prop where
  chat : provider.capabilities.chat = true
  vision : (∃ message ∈ messages, message.images ≠ []) → provider.capabilities.vision = true

/-- What a completion does with a reference: it asks the provider of the reference, once, or
raises and asks none. -/
def Routed (router : ModelRouter) (reference : ModelRef) (messages : List ModelMessage) (done : Completion) : Prop :=
  (∀ provider, router.registry reference.provider = some provider → provider.Takes messages →
    done = ⟨[(reference.provider,⟨reference,messages⟩)],provider.complete ⟨reference,messages⟩⟩) ∧
  ((∀ provider, router.registry reference.provider = some provider → ¬ provider.Takes messages) →
    done.calls = [] ∧ ∃ e, done.result = .error e)

variable {router : ModelRouter} {value : String} {messages : List ModelMessage} {reference : ModelRef}

/-- The target of `auto` is the default, as `auto` has no other model. -/
theorem target_eq (hwf : reference.WellFormed) :
    router.target reference = if reference.provider = "auto" then router.default else reference := by
  unfold ModelRouter.target
  by_cases hauto : reference.provider = "auto"
  · rw [if_pos ⟨hauto,hwf.auto hauto⟩,if_pos hauto]
  · rw [if_neg fun h => hauto h.1,if_neg hauto]

theorem takes_iff {provider : Provider} :
    provider.Takes messages ↔ provider.capabilities.chat = true ∧
      (messages.any (fun message => !message.images.isEmpty) && !provider.capabilities.vision) = false := by
  have himages : messages.any (fun message => !message.images.isEmpty) = true ↔ ∃ message ∈ messages, message.images ≠ [] := by
    simp
  constructor
  · rintro ⟨hchat,hvision⟩
    refine ⟨hchat,?_⟩
    by_cases hany : ∃ message ∈ messages, message.images ≠ []
    · rw [hvision hany,Bool.not_true,Bool.and_false]
    · rw [Bool.eq_false_iff.mpr fun h => hany (himages.mp h),Bool.false_and]
  · rintro ⟨hchat,hvision⟩
    refine ⟨hchat,fun hany => ?_⟩
    rw [himages.mpr hany,Bool.true_and,Bool.not_eq_false'] at hvision
    exact hvision

theorem complete_routed (h : resolveCompatibility value = .ok reference) :
    Routed router (router.target reference) messages (router.complete value messages) := by
  unfold ModelRouter.complete Routed
  rw [h]
  dsimp only
  cases hregistered : router.registry (router.target reference).provider with
  | none => exact ⟨fun provider hp => (by cases hp),fun _ => ⟨rfl,_,rfl⟩⟩
  | some provider =>
    constructor
    · intro provider' hp htakes
      cases hp
      obtain ⟨hchat,hvision⟩ := takes_iff.mp htakes
      simp only [hchat, hvision, Bool.not_true, Bool.false_eq_true, if_false]
    · intro hnone
      have hnot := hnone provider rfl
      rw [takes_iff] at hnot
      dsimp only
      split
      · exact ⟨rfl,_,rfl⟩
      next hchat =>
        split
        · exact ⟨rfl,_,rfl⟩
        next hvision =>
          exact absurd ⟨by simpa using hchat,Bool.eq_false_iff.mpr hvision⟩ hnot

/-- What a name is short for: four names are from before there were providers. -/
def currentName (value : String) : String :=
  if value = "local/default" then "auto://default"
  else if value = "qwen3-4b-nothink:latest" then "ollama://qwen3-4b-nothink:latest"
  else if value = "qwen3:4B" then "ollama://qwen3:4B"
  else if value = "qwen3:0.6B" then "ollama://qwen3:0.6B"
  else value

theorem lookup_ne {name target : String} {rest : List (String × String)} (h : value ≠ name) :
    ((name,target) :: rest).lookup value = rest.lookup value := by
  rw [List.lookup_cons, beq_eq_false_iff_ne.mpr h]

theorem lookup_compatibility (value : String) : (compatibility.lookup value).getD value = currentName value := by
  unfold currentName compatibility
  split
  next h => rw [h]; rfl
  next hdefault =>
    rw [lookup_ne hdefault]
    split
    next h => rw [h]; rfl
    next hnothink =>
      rw [lookup_ne hnothink]
      split
      next h => rw [h]; rfl
      next hlarge =>
        rw [lookup_ne hlarge]
        split
        next h => rw [h]; rfl
        next hsmall =>
          rw [lookup_ne hsmall]
          rfl

theorem resolveCompatibility_eq (value : String) : resolveCompatibility value = ModelRef.parse (currentName value) := by
  rw [resolveCompatibility, lookup_compatibility]

/-- References are parsed exactly, and a completion asks the provider of its reference or none. -/
theorem references_route (router : ModelRouter) :
    (∀ value ref, ModelRef.parse value = .ok ref ↔ ref.WellFormed ∧ ref.text = value) ∧
    (∀ value messages, (router.complete value messages).calls.length ≤ 1) ∧
    (∀ value messages e, ModelRef.parse (currentName value) = .error e → router.complete value messages = ⟨[],.error e⟩) ∧
    ∀ value messages reference, ModelRef.parse (currentName value) = .ok reference →
      Routed router (if reference.provider = "auto" then router.default else reference) messages
        (router.complete value messages) := by
  simp only [← resolveCompatibility_eq]
  refine ⟨fun _ _ => ModelRef.parse_iff,fun value messages => ?_,fun value messages e h => ?_,fun value messages reference h => ?_⟩
  · unfold ModelRouter.complete
    split
    · exact Nat.zero_le 1
    · dsimp only
      split
      · exact Nat.zero_le 1
      · split
        · exact Nat.zero_le 1
        · split
          · exact Nat.zero_le 1
          · exact Nat.le_refl 1
  · unfold ModelRouter.complete
    rw [h]
  · rw [← target_eq (ModelRef.parse_iff.mp h).1]
    exact complete_routed h

/-- Only a local provider without vision. -/
def localRouter : ModelRouter where
  registry name := if name = "ollama" then some ⟨⟨true,false⟩,fun _ => .error ⟨.timeout,"Model request timed out"⟩⟩ else none
  default := ⟨"ollama","small"⟩
  default_wellFormed := (ModelRef.parse_iff.mp (show ModelRef.parse "ollama://small" = .ok ⟨"ollama","small"⟩ by decide +kernel)).1

theorem references_route_legacy :
    (localRouter.complete "qwen3:4B" []).calls = [("ollama",⟨⟨"ollama","qwen3:4B"⟩,[]⟩)] ∧
    (localRouter.complete "local/default" []).calls = [("ollama",⟨⟨"ollama","small"⟩,[]⟩)] ∧
    (localRouter.complete "qwen3" []).calls = [] := by
  obtain ⟨-,-,hraised,hrouted⟩ := references_route localRouter
  have hregistered : localRouter.registry "ollama" = some ⟨⟨true,false⟩,fun _ => .error ⟨.timeout,"Model request timed out"⟩⟩ := by
    simp [localRouter]
  refine ⟨?_,?_,?_⟩
  · have hlegacy := hrouted "qwen3:4B" [] ⟨"ollama","qwen3:4B"⟩ (by decide +kernel)
    rw [if_neg (by decide)] at hlegacy
    rw [hlegacy.1 _ hregistered ⟨rfl,by simp⟩]
  · have hdefault := hrouted "local/default" [] ⟨"auto","default"⟩ (by decide +kernel)
    rw [if_pos rfl] at hdefault
    rw [hdefault.1 _ hregistered ⟨rfl,by simp⟩]
    rfl
  · have hnone : ModelRef.parse (currentName "qwen3") = .error (configurationError "Invalid model reference") := by decide +kernel
    rw [hraised _ [] _ hnone]

end AgentGraph.Models
