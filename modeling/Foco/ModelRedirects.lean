import Foco.Result
import Foco.RustText
import Mathlib.Data.List.Destutter
import Mathlib.Data.List.Lex
import Mathlib.Data.List.Sort
import Mathlib.Data.Char

/-!
Model redirects of `providers/lib.rs`: the ids under which a provider's models are listed, and the
upstream id that a listed id stands for.
-/
namespace Foco.ModelRedirects
open Foco.RustText Foco.Result

inductive ProviderConfigError where
  | invalidRequest (message : Text)
deriving DecidableEq

structure ProviderModelRedirect where
  source : Text
  target : Text

/-! ## Validation -/

def normalizedModelRedirectValue (field value : Text) : Except ProviderConfigError Text :=
  let value := trim value
  if value = [] then
    .error (.invalidRequest ("model redirect ".toList ++ field ++ " must not be empty".toList))
  else if value.any isWhitespace then
    .error (.invalidRequest ("model redirect ".toList ++ field ++
      " must not contain whitespace: ".toList ++ value))
  else .ok value

namespace ProviderModelRedirect

def normalizedFrom (redirect : ProviderModelRedirect) : Except ProviderConfigError Text :=
  normalizedModelRedirectValue "from".toList redirect.source

def normalizedTo (redirect : ProviderModelRedirect) : Except ProviderConfigError Text :=
  normalizedModelRedirectValue "to".toList redirect.target

def validate (redirect : ProviderModelRedirect) : Except ProviderConfigError Unit := do
  let _ ← redirect.normalizedFrom
  let _ ← redirect.normalizedTo
  return ()

end ProviderModelRedirect

/-- `HashSet::insert`, with what is reported where the value is there already. -/
def insertNew (kind value : Text) (seen : List Text) : Except ProviderConfigError (List Text) :=
  if value ∈ seen then
    .error (.invalidRequest ("duplicate model redirect ".toList ++ kind ++ " '".toList ++ value ++
      ['\'']))
  else .ok (value :: seen)

/-- The loop of `validate_model_redirects`. -/
def validateFrom (sources targets : List Text) :
    List ProviderModelRedirect → Except ProviderConfigError Unit
  | [] => .ok ()
  | redirect :: rest => do
    redirect.validate
    let source ← redirect.normalizedFrom
    let sources ← insertNew "source".toList source sources
    let target ← redirect.normalizedTo
    let targets ← insertNew "target".toList target targets
    validateFrom sources targets rest

def validateModelRedirects (redirects : List ProviderModelRedirect) :
    Except ProviderConfigError Unit :=
  validateFrom [] [] redirects

/-! ## Redirection -/

def uniqueSortedModelIds (models : List Text) : List Text :=
  ((models.filter fun model => trim model ≠ []).insertionSort (· ≤ ·)).destutter (· ≠ ·)

/-- The id under which a model is listed. -/
def redirectedModelId (redirects : List ProviderModelRedirect) (model : Text) : Text :=
  (redirects.findSome? fun redirect =>
    if redirect.normalizedFrom = .ok (trim model) then redirect.normalizedTo.toOption
    else none).getD (trim model)

def redirectedProviderModelIds (models : List Text) (redirects : List ProviderModelRedirect) :
    Except ProviderConfigError (List Text) := do
  validateModelRedirects redirects
  return uniqueSortedModelIds (models.map (redirectedModelId redirects))

def upstreamProviderModelId (modelId : Text) (redirects : List ProviderModelRedirect) :
    Except ProviderConfigError Text := do
  validateModelRedirects redirects
  return (redirects.findSome? fun redirect =>
    if redirect.normalizedTo = .ok (trim modelId) then redirect.normalizedFrom.toOption
    else none).getD modelId

/-! ## Accepted redirects -/

def Unspaced (text : Text) : Prop := ∀ c ∈ text, isWhitespace c = false

/-- What is redirected from, and to what, in a list without empty and repeated ids. -/
structure Accepted (redirects : List ProviderModelRedirect) : Prop where
  normalizedFrom : ∀ redirect ∈ redirects, redirect.normalizedFrom = .ok (trim redirect.source)
  normalizedTo : ∀ redirect ∈ redirects, redirect.normalizedTo = .ok (trim redirect.target)
  sources : (redirects.map fun redirect => trim redirect.source).Nodup
  targets : (redirects.map fun redirect => trim redirect.target).Nodup

theorem normalizedModelRedirectValue_eq_ok {field value normalized : Text} :
    normalizedModelRedirectValue field value = .ok normalized ↔
      normalized = trim value ∧ normalized ≠ [] ∧ Unspaced normalized := by
  unfold normalizedModelRedirectValue Unspaced
  dsimp only
  split
  · rename_i empty
    rw [empty]
    exact ⟨nofun, fun ⟨same, filled, _⟩ => absurd same filled⟩
  split
  · rename_i spaced
    refine ⟨nofun, fun ⟨same, _, free⟩ => ?_⟩
    obtain ⟨c, mem, white⟩ := List.any_eq_true.mp spaced
    rw [free c (same ▸ mem)] at white
    contradiction
  · rename_i filled free
    constructor
    · intro ok
      obtain rfl := Except.ok.inj ok
      refine ⟨rfl, filled, fun c mem => Bool.eq_false_iff.mpr fun white => free ?_⟩
      exact List.any_eq_true.mpr ⟨c, mem, white⟩
    · rintro ⟨rfl, _⟩
      rfl

theorem insertNew_eq_ok {kind value : Text} {seen seen' : List Text} :
    insertNew kind value seen = .ok seen' ↔ value ∉ seen ∧ seen' = value :: seen := by
  unfold insertNew
  split
  · rename_i mem
    exact ⟨nofun, fun both => absurd mem both.1⟩
  · rename_i absent
    exact ⟨fun ok => ⟨absent, (Except.ok.inj ok).symm⟩, fun both => congrArg _ both.2.symm⟩

theorem accepted_of_validateFrom {sources targets : List Text}
    {redirects : List ProviderModelRedirect}
    (ok : validateFrom sources targets redirects = .ok ()) :
    Accepted redirects ∧ (∀ redirect ∈ redirects, trim redirect.source ∉ sources) ∧
      ∀ redirect ∈ redirects, trim redirect.target ∉ targets := by
  induction redirects generalizing sources targets with
  | nil => exact ⟨⟨nofun, nofun, .nil, .nil⟩, nofun, nofun⟩
  | cons redirect rest ih =>
    unfold validateFrom at ok
    obtain ⟨_, _, ok⟩ := bind_eq_ok.mp ok
    obtain ⟨source, from_, ok⟩ := bind_eq_ok.mp ok
    obtain ⟨sources', newSource, ok⟩ := bind_eq_ok.mp ok
    obtain ⟨target, into, ok⟩ := bind_eq_ok.mp ok
    obtain ⟨targets', newTarget, ok⟩ := bind_eq_ok.mp ok
    obtain rfl := (normalizedModelRedirectValue_eq_ok.mp from_).1
    obtain rfl := (normalizedModelRedirectValue_eq_ok.mp into).1
    obtain ⟨freshSource, rfl⟩ := insertNew_eq_ok.mp newSource
    obtain ⟨freshTarget, rfl⟩ := insertNew_eq_ok.mp newTarget
    obtain ⟨accepted, otherSources, otherTargets⟩ := ih ok
    refine ⟨⟨?_, ?_, ?_, ?_⟩, ?_, ?_⟩
    · exact List.forall_mem_cons.mpr ⟨from_, accepted.normalizedFrom⟩
    · exact List.forall_mem_cons.mpr ⟨into, accepted.normalizedTo⟩
    · refine List.nodup_cons.mpr ⟨fun mem => ?_, accepted.sources⟩
      obtain ⟨other, mem, same⟩ := List.mem_map.mp mem
      exact otherSources other mem (same ▸ List.mem_cons_self)
    · refine List.nodup_cons.mpr ⟨fun mem => ?_, accepted.targets⟩
      obtain ⟨other, mem, same⟩ := List.mem_map.mp mem
      exact otherTargets other mem (same ▸ List.mem_cons_self)
    · exact List.forall_mem_cons.mpr ⟨freshSource, fun other mem seen =>
        otherSources other mem (List.mem_cons_of_mem _ seen)⟩
    · exact List.forall_mem_cons.mpr ⟨freshTarget, fun other mem seen =>
        otherTargets other mem (List.mem_cons_of_mem _ seen)⟩

/-! ## Listed ids and what they resolve to -/

section Resolution

variable {redirects : List ProviderModelRedirect} {model id : Text}

/-- A model that is redirected. -/
def IsSource (redirects : List ProviderModelRedirect) (id : Text) : Prop :=
  ∃ redirect ∈ redirects, trim redirect.source = id

/-- An id that a model is redirected to. -/
def IsTarget (redirects : List ProviderModelRedirect) (id : Text) : Prop :=
  ∃ redirect ∈ redirects, trim redirect.target = id

/-- A search whose hits all give one value. -/
theorem findSome_only {α β : Type} {find : α → Option β} {items : List α} {item : α}
    (value : β) (mem : item ∈ items) (hit : find item = some value)
    (only : ∀ other ∈ items, ∀ found, find other = some found → found = value) :
    items.findSome? find = some value := by
  cases outcome : items.findSome? find with
  | none =>
    have missed := List.findSome?_eq_none_iff.mp outcome item mem
    rw [hit] at missed
    contradiction
  | some found =>
    obtain ⟨other, otherMem, otherHit⟩ := List.exists_of_findSome?_eq_some outcome
    rw [only other otherMem found otherHit]

theorem redirectedModelId_of_source (accepted : Accepted redirects)
    {redirect : ProviderModelRedirect} (mem : redirect ∈ redirects)
    (same : trim redirect.source = trim model) :
    redirectedModelId redirects model = trim redirect.target := by
  unfold redirectedModelId
  rw [findSome_only (trim redirect.target) mem, Option.getD_some]
  · rw [accepted.normalizedFrom redirect mem, accepted.normalizedTo redirect mem, same, if_pos rfl]
    rfl
  · intro other otherMem found hit
    rw [accepted.normalizedFrom other otherMem, accepted.normalizedTo other otherMem] at hit
    obtain ⟨otherSame, hit⟩ := Option.ite_none_right_eq_some.mp hit
    have equal : other = redirect := List.inj_on_of_nodup_map accepted.sources otherMem mem
      ((Except.ok.inj otherSame).trans same.symm)
    rw [← Option.some.inj hit, equal]

theorem redirectedModelId_of_not_source (accepted : Accepted redirects)
    (kept : ¬IsSource redirects (trim model)) : redirectedModelId redirects model = trim model := by
  unfold redirectedModelId
  rw [List.findSome?_eq_none_iff.mpr, Option.getD_none]
  intro redirect mem
  rw [accepted.normalizedFrom redirect mem, if_neg]
  exact fun same => kept ⟨redirect, mem, Except.ok.inj same⟩

theorem upstreamProviderModelId_of_target (valid : validateModelRedirects redirects = .ok ())
    (accepted : Accepted redirects) {redirect : ProviderModelRedirect} (mem : redirect ∈ redirects)
    (same : trim redirect.target = trim id) :
    upstreamProviderModelId id redirects = .ok (trim redirect.source) := by
  unfold upstreamProviderModelId
  rw [valid]
  refine congrArg Except.ok ?_
  rw [findSome_only (trim redirect.source) mem, Option.getD_some]
  · rw [accepted.normalizedFrom redirect mem, accepted.normalizedTo redirect mem, same, if_pos rfl]
    rfl
  · intro other otherMem found hit
    rw [accepted.normalizedFrom other otherMem, accepted.normalizedTo other otherMem] at hit
    obtain ⟨otherSame, hit⟩ := Option.ite_none_right_eq_some.mp hit
    have equal : other = redirect := List.inj_on_of_nodup_map accepted.targets otherMem mem
      ((Except.ok.inj otherSame).trans same.symm)
    rw [← Option.some.inj hit, equal]

theorem upstreamProviderModelId_of_not_target (valid : validateModelRedirects redirects = .ok ())
    (accepted : Accepted redirects) (kept : ¬IsTarget redirects (trim id)) :
    upstreamProviderModelId id redirects = .ok id := by
  unfold upstreamProviderModelId
  rw [valid]
  refine congrArg Except.ok ?_
  rw [List.findSome?_eq_none_iff.mpr, Option.getD_none]
  intro redirect mem
  rw [accepted.normalizedTo redirect mem, if_neg]
  exact fun same => kept ⟨redirect, mem, Except.ok.inj same⟩

/-- A redirected model is what its listed id resolves to. -/
theorem upstream_redirected_of_source (valid : validateModelRedirects redirects = .ok ())
    (accepted : Accepted redirects) (source : IsSource redirects (trim model)) :
    upstreamProviderModelId (redirectedModelId redirects model) redirects = .ok (trim model) := by
  obtain ⟨redirect, mem, same⟩ := source
  rw [redirectedModelId_of_source accepted mem same,
    upstreamProviderModelId_of_target valid accepted mem (trim_trim _).symm, same]

theorem upstream_redirected_of_free (valid : validateModelRedirects redirects = .ok ())
    (accepted : Accepted redirects) (kept : ¬IsSource redirects (trim model))
    (free : ¬IsTarget redirects (trim model)) :
    upstreamProviderModelId (redirectedModelId redirects model) redirects = .ok (trim model) := by
  rw [redirectedModelId_of_not_source accepted kept]
  exact upstreamProviderModelId_of_not_target valid accepted ((trim_trim model).symm ▸ free)

/-- What a listed id resolves to is redirected, or no redirect says so. -/
theorem source_or_free_of_upstream (valid : validateModelRedirects redirects = .ok ())
    (accepted : Accepted redirects) (flush : trim id = id)
    (resolved : upstreamProviderModelId id redirects = .ok model) :
    IsSource redirects model ∨ ¬IsTarget redirects model := by
  by_cases target : IsTarget redirects (trim id)
  · obtain ⟨redirect, mem, same⟩ := target
    rw [upstreamProviderModelId_of_target valid accepted mem same] at resolved
    exact .inl ⟨redirect, mem, Except.ok.inj resolved⟩
  · rw [upstreamProviderModelId_of_not_target valid accepted target] at resolved
    rw [flush, Except.ok.inj resolved] at target
    exact .inr target

theorem trim_redirectedModelId (accepted : Accepted redirects) :
    trim (redirectedModelId redirects model) = redirectedModelId redirects model := by
  by_cases source : IsSource redirects (trim model)
  · obtain ⟨redirect, mem, same⟩ := source
    rw [redirectedModelId_of_source accepted mem same, trim_trim]
  · rw [redirectedModelId_of_not_source accepted source, trim_trim]

theorem redirectedModelId_ne_nil (accepted : Accepted redirects) (filled : trim model ≠ []) :
    redirectedModelId redirects model ≠ [] := by
  by_cases source : IsSource redirects (trim model)
  · obtain ⟨redirect, mem, same⟩ := source
    rw [redirectedModelId_of_source accepted mem same]
    exact (normalizedModelRedirectValue_eq_ok.mp (accepted.normalizedTo redirect mem)).2.1
  · rw [redirectedModelId_of_not_source accepted source]
    exact filled

end Resolution

/-! ## The list -/

theorem mem_destutter' {α : Type} [DecidableEq α] {a other : α} {items : List α} :
    other ∈ items.destutter' (· ≠ ·) a ↔ other ∈ a :: items := by
  induction items generalizing a with
  | nil => rfl
  | cons head rest ih =>
    rw [List.destutter'_cons]
    split
    · rw [List.mem_cons, ih, ← List.mem_cons]
    · rename_i same
      obtain rfl := not_not.mp same
      rw [ih, List.mem_cons, List.mem_cons, List.mem_cons, or_self_left]

theorem mem_destutter {α : Type} [DecidableEq α] {other : α} {items : List α} :
    other ∈ items.destutter (· ≠ ·) ↔ other ∈ items := by
  cases items with
  | nil => rfl
  | cons head rest => exact mem_destutter'

theorem mem_uniqueSortedModelIds {id : Text} {models : List Text} :
    id ∈ uniqueSortedModelIds models ↔ id ∈ models ∧ trim id ≠ [] := by
  unfold uniqueSortedModelIds
  rw [mem_destutter, List.mem_insertionSort, List.mem_filter, decide_eq_true_iff]

/-- Listing and resolving invert each other. -/
structure Inverse (redirects : List ProviderModelRedirect) (models listed : List Text) :
    Prop where
  resolves : ∀ id ∈ listed, ∃ model ∈ models,
    upstreamProviderModelId id redirects = .ok (trim model) ∧
      redirectedModelId redirects model = id
  reached : ∀ model ∈ models, trim model ≠ [] →
    ∃ id ∈ listed, upstreamProviderModelId id redirects = .ok (trim model)

/-- The redirect takes the place of a model that is offered under its target. -/
theorem redirect_hides_offered :
    validateModelRedirects [⟨['a'], ['b']⟩] = .ok () ∧
      ¬∃ listed, redirectedProviderModelIds [['a'], ['b']] [⟨['a'], ['b']⟩] = .ok listed ∧
        Inverse [⟨['a'], ['b']⟩] [['a'], ['b']] listed := by
  refine ⟨by decide, ?_⟩
  rintro ⟨listed, done, inverse⟩
  have only : redirectedProviderModelIds [['a'], ['b']] [⟨['a'], ['b']⟩] = .ok [['b']] := by
    decide
  obtain rfl := Except.ok.inj (only.symm.trans done)
  obtain ⟨id, mem, resolved⟩ := inverse.reached ['b'] (by decide) (by decide)
  obtain rfl := List.mem_singleton.mp mem
  exact absurd resolved (by decide)

/-- A model that is redirected, or is no target, keeps an id of its own, and all do unless one is
offered under the target of a redirect and is not redirected. -/
theorem redirects_inverse_iff {redirects : List ProviderModelRedirect}
    (valid : validateModelRedirects redirects = .ok ()) (models : List Text) :
    ∃ listed, redirectedProviderModelIds models redirects = .ok listed ∧
      (∀ model ∈ models, trim model ≠ [] →
        IsSource redirects (trim model) ∨ ¬IsTarget redirects (trim model) →
          redirectedModelId redirects model ∈ listed ∧
            upstreamProviderModelId (redirectedModelId redirects model) redirects =
              .ok (trim model)) ∧
      (Inverse redirects models listed ↔ ∀ model ∈ models,
        IsTarget redirects (trim model) → IsSource redirects (trim model)) := by
  have accepted : Accepted redirects := (accepted_of_validateFrom valid).1
  have listed_iff (id : Text) : id ∈ uniqueSortedModelIds (models.map (redirectedModelId redirects))
      ↔ (∃ model ∈ models, redirectedModelId redirects model = id) ∧ trim id ≠ [] := by
    rw [mem_uniqueSortedModelIds, List.mem_map]
  have resolved (model : Text)
      (own : IsSource redirects (trim model) ∨ ¬IsTarget redirects (trim model)) :
      upstreamProviderModelId (redirectedModelId redirects model) redirects =
        .ok (trim model) := by
    by_cases source : IsSource redirects (trim model)
    · exact upstream_redirected_of_source valid accepted source
    · exact upstream_redirected_of_free valid accepted source (own.resolve_left source)
  have member (model : Text) (mem : model ∈ models) (filled : trim model ≠ []) :
      redirectedModelId redirects model ∈
        uniqueSortedModelIds (models.map (redirectedModelId redirects)) := by
    refine (listed_iff _).mpr ⟨⟨model, mem, rfl⟩, ?_⟩
    rw [trim_redirectedModelId accepted]
    exact redirectedModelId_ne_nil accepted filled
  refine ⟨uniqueSortedModelIds (models.map (redirectedModelId redirects)), ?_, ?_, ?_⟩
  · unfold redirectedProviderModelIds
    rw [valid]
    rfl
  · exact fun model mem filled own => ⟨member model mem filled, resolved model own⟩
  constructor
  · intro inverse model mem target
    have filled : trim model ≠ [] := by
      obtain ⟨redirect, redirectMem, same⟩ := target
      rw [← same]
      exact (normalizedModelRedirectValue_eq_ok.mp
        (accepted.normalizedTo redirect redirectMem)).2.1
    obtain ⟨id, idMem, upstream⟩ := inverse.reached model mem filled
    obtain ⟨⟨other, _, rfl⟩, _⟩ := (listed_iff id).mp idMem
    have own := source_or_free_of_upstream valid accepted (trim_redirectedModelId accepted) upstream
    exact own.resolve_right (not_not.mpr target)
  · intro covered
    have own (model : Text) (mem : model ∈ models) :
        IsSource redirects (trim model) ∨ ¬IsTarget redirects (trim model) := by
      by_cases target : IsTarget redirects (trim model)
      · exact .inl (covered model mem target)
      · exact .inr target
    refine ⟨fun id mem => ?_, fun model mem filled => ?_⟩
    · obtain ⟨⟨model, modelMem, rfl⟩, _⟩ := (listed_iff id).mp mem
      exact ⟨model, modelMem, resolved model (own model modelMem), rfl⟩
    · exact ⟨_, member model mem filled, resolved model (own model mem)⟩

/-- Two models whose ids are swapped. -/
theorem redirects_inverse_swapped :
    ∃ listed, redirectedProviderModelIds [['a'], ['b']] [⟨['a'], ['b']⟩, ⟨['b'], ['a']⟩] =
        .ok listed ∧
      (∀ model ∈ [['a'], ['b']], trim model ≠ [] →
        IsSource [⟨['a'], ['b']⟩, ⟨['b'], ['a']⟩] (trim model) ∨
            ¬IsTarget [⟨['a'], ['b']⟩, ⟨['b'], ['a']⟩] (trim model) →
          redirectedModelId [⟨['a'], ['b']⟩, ⟨['b'], ['a']⟩] model ∈ listed ∧
            upstreamProviderModelId (redirectedModelId [⟨['a'], ['b']⟩, ⟨['b'], ['a']⟩] model)
              [⟨['a'], ['b']⟩, ⟨['b'], ['a']⟩] = .ok (trim model)) ∧
      (Inverse [⟨['a'], ['b']⟩, ⟨['b'], ['a']⟩] [['a'], ['b']] listed ↔
        ∀ model ∈ [['a'], ['b']], IsTarget [⟨['a'], ['b']⟩, ⟨['b'], ['a']⟩] (trim model) →
          IsSource [⟨['a'], ['b']⟩, ⟨['b'], ['a']⟩] (trim model)) :=
  redirects_inverse_iff (by decide) [['a'], ['b']]

end Foco.ModelRedirects
