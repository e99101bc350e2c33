import AgentGraph.Domain.Text
import Mathlib.Data.List.Infix

/-! # Model references, messages and responses

A reference is a provider and a model identifier around the first `://` of its text.
-/
set_option autoImplicit false
namespace AgentGraph.Models

inductive ModelErrorCode
  | providerUnavailable | timeout | cancelled | modelNotFound | authenticationFailed | rateLimited
  | invalidResponse | configurationError | visionCapabilityMissing
deriving DecidableEq, Repr

structure ModelRouterError where
  code : ModelErrorCode
  message : String
deriving DecidableEq, Repr

structure ModelRef where
  provider : String
  modelId : String
deriving DecidableEq, Repr

structure ImagePart where
  data : List UInt8
  mimeType : String
deriving DecidableEq

structure ModelMessage where
  role : String
  content : String
  images : List ImagePart
deriving DecidableEq

structure ModelUsage where
  inputTokens : Option ℕ
  outputTokens : Option ℕ
  totalTokens : Option ℕ
deriving DecidableEq, Repr

structure ModelRequest where
  modelRef : ModelRef
  messages : List ModelMessage
deriving DecidableEq

/-- The capabilities that the router asks for. -/
structure ProviderCapability where
  chat : Bool
  vision : Bool
deriving DecidableEq, Repr

structure ModelResponse where
  content : String
  providerId : String
  modelId : String
  finishReason : Option String
  usage : ModelUsage
  latencyMs : Option ℕ
deriving DecidableEq

/-- `text.partition(separator)`, if the separator occurs. -/
def partition (separator : List Char) : List Char → Option (List Char × List Char)
  | [] => if separator.isEmpty then some ([],[]) else none
  | c :: text =>
    if separator.isPrefixOf (c :: text) then some ([],(c :: text).drop separator.length)
    else (partition separator text).map fun parts => (c :: parts.1,parts.2)

def schemeSeparator : List Char := "://".toList

def providers : List String := ["auto","ollama","opencode","openrouter"]

/-- The class of identifiers: ASCII letters and digits, dots, underscores, colons, slashes and
hyphens. -/
def isModelChar (c : Char) : Bool :=
  c.isAlphanum || c == '.' || c == '_' || c == ':' || c == '/' || c == '-'

def configurationError (message : String) : ModelRouterError := ⟨.configurationError,message⟩

def ModelRef.parse (value : String) : Except ModelRouterError ModelRef :=
  match partition schemeSeparator value.toList with
  | none => .error (configurationError "Invalid model reference")
  | some (before,after) =>
    let provider := String.ofList before
    let modelId := String.ofList after
    if before = [] ∨ after = [] then .error (configurationError "Invalid model reference")
    else if provider ∉ providers then .error (configurationError "Unsupported model provider")
    else if provider = "auto" ∧ modelId ≠ "default" then
      .error (configurationError "Unsupported automatic model reference")
    else if ¬ after.all isModelChar ∨ schemeSeparator <:+: after then
      .error (configurationError "Invalid model identifier")
    else .ok ⟨provider,modelId⟩

/-- The references that have a text. -/
structure ModelRef.WellFormed (ref : ModelRef) : Prop where
  provider : ref.provider ∈ providers
  nonempty : ref.modelId ≠ ""
  chars : ∀ c ∈ ref.modelId.toList, isModelChar c = true
  single : ¬ schemeSeparator <:+: ref.modelId.toList
  auto : ref.provider = "auto" → ref.modelId = "default"

def ModelRef.text (ref : ModelRef) : String := ref.provider ++ "://" ++ ref.modelId

/-! ## The grammar of references -/

theorem partition_eq_append {separator text before after : List Char} (h : partition separator text = some (before,after)) :
    text = before ++ separator ++ after := by
  induction text generalizing before with
  | nil =>
    unfold partition at h
    split at h
    next hempty =>
      cases h
      simpa using hempty
    · cases h
  | cons c text ih =>
    unfold partition at h
    split at h
    next hfirst =>
      cases h
      obtain ⟨rest,hrest⟩ := List.isPrefixOf_iff_prefix.mp hfirst
      rw [← hrest,List.drop_left]
      rfl
    · obtain ⟨⟨before',after'⟩,hparts,heq⟩ := Option.map_eq_some_iff.mp h
      cases heq
      rw [ih hparts]
      rfl

/-- A first part without the separator's first letter ends at the separator. -/
theorem partition_append {c : Char} {separator before after : List Char} (h : c ∉ before) :
    partition (c :: separator) (before ++ (c :: separator) ++ after) = some (before,after) := by
  induction before with
  | nil =>
    have hfirst : (c :: separator).isPrefixOf (c :: (separator ++ after)) = true :=
      List.isPrefixOf_iff_prefix.mpr (List.prefix_append (c :: separator) after)
    change partition (c :: separator) (c :: (separator ++ after)) = _
    unfold partition
    rw [if_pos hfirst]
    have hdrop : (c :: (separator ++ after)).drop (c :: separator).length = after := List.drop_left
    rw [hdrop]
  | cons d before ih =>
    have hd : c ≠ d := fun he => h (he ▸ List.mem_cons_self)
    have hfirst : (c :: separator).isPrefixOf (d :: (before ++ (c :: separator) ++ after)) ≠ true := by
      simp [List.isPrefixOf,hd]
    change partition (c :: separator) (d :: (before ++ (c :: separator) ++ after)) = _
    unfold partition
    rw [if_neg hfirst,ih fun hc => h (List.mem_cons_of_mem d hc)]
    rfl

theorem partition_text {ref : ModelRef} (h : ref.provider ∈ providers) :
    partition schemeSeparator ref.text.toList = some (ref.provider.toList,ref.modelId.toList) := by
  have hcolon : ∀ provider ∈ providers, ':' ∉ provider.toList := by decide
  have htext : ref.text.toList = ref.provider.toList ++ schemeSeparator ++ ref.modelId.toList := by
    simp [ModelRef.text,schemeSeparator]
  rw [htext]
  exact partition_append (hcolon ref.provider h)

/-- A text is accepted exactly if it is that of a well-formed reference, which it is parsed to. -/
theorem ModelRef.parse_iff {value : String} {ref : ModelRef} :
    ModelRef.parse value = .ok ref ↔ ref.WellFormed ∧ ref.text = value := by
  constructor
  · intro h
    unfold ModelRef.parse at h
    split at h
    · cases h
    next before after hparts =>
      dsimp only at h
      split at h
      · cases h
      next hne =>
        split at h
        · cases h
        next hprovider =>
          split at h
          · cases h
          next hauto =>
            split at h
            · cases h
            next hchars =>
              cases h
              simp only [not_or, not_and, not_not] at hne hprovider hauto hchars
              have htext := partition_eq_append hparts
              refine ⟨⟨hprovider,?_,?_,?_,hauto⟩,?_⟩
              · intro hempty
                exact hne.2 (by simpa using congrArg String.toList hempty)
              · simpa using List.all_eq_true.mp hchars.1
              · simpa using hchars.2
              · apply String.toList_inj.mp
                rw [htext]
                simp [ModelRef.text,schemeSeparator]
  · rintro ⟨hwf,rfl⟩
    have hprovider : ref.provider.toList ≠ [] := by
      have hall : ∀ provider ∈ providers, provider.toList ≠ [] := by decide
      exact hall _ hwf.provider
    have hmodel : ref.modelId.toList ≠ [] := fun hempty => hwf.nonempty (String.toList_inj.mp (by simpa using hempty))
    unfold ModelRef.parse
    rw [partition_text hwf.provider]
    dsimp only
    rw [String.ofList_toList,String.ofList_toList,if_neg (by simp [hprovider,hmodel]),if_neg (not_not.mpr hwf.provider),
      if_neg (fun h => h.2 (hwf.auto h.1)),if_neg]
    rintro (hchars | hsingle)
    · exact hchars (List.all_eq_true.mpr hwf.chars)
    · exact hwf.single hsingle

end AgentGraph.Models
