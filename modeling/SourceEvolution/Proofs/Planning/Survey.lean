import SourceEvolution.Planning.Walk
import SourceEvolution.Proofs.Change.Findings
import SourceEvolution.Proofs.Tree.Places

/-!
# The walk without stacks

The walk keeps the open declarations and their candidates on two stacks. The survey is the same walk
as a plain recursion: the scope is an argument, the candidates that belong to the declaration around
a node are handed back, and so is one closing for each declaration below.

* **The survey** (`survey`, `surveyFile`): the recursion, over the same random words.
* **Carrying** (`Carries`): a step of the walk does what a step of the survey says, and ends early
  only where the survey does, with the same words left.
* **Refinement** (`visit_carries`, `planFile_eq_surveyFile`): a walk through a subtree carries the
  survey of it, as soon as there is a frame for what is found. `Walk.absorb` says what it leaves
  behind: the innermost frame and the plan have grown at their ends, and nothing else has changed.

The errors for a frame that is not closed in its turn, for a candidate outside every frame and for a
number that is not the number of a candidate have no counterpart in the survey, so the refinement
says that they never occur.
-/

namespace SourceEvolution

variable {G : Type}

/-! ## The survey -/

/-- A computation that draws random words. -/
abbrev Drawing (G α : Type) := EStateM EvolutionError G α

/-- What is left of a declaration that has been closed. -/
structure Closing where
  /-- The candidates of its frame. -/
  candidates : List Candidate
  /-- What was put into the plan. -/
  entries : Plan

/-- What a walk through a subtree brings in. -/
structure Harvest where
  /-- The candidates that belong to the declaration around the subtree. -/
  loose : List Candidate := []
  /-- The declarations of the subtree, in the order in which they were closed. -/
  closings : List Closing := []

/-- What two subtrees side by side bring in. -/
def Harvest.append (first second : Harvest) : Harvest :=
  ⟨first.loose ++ second.loose, first.closings ++ second.closings⟩

/-- What is put into the plan for all declarations of a subtree. -/
def Harvest.entries (harvest : Harvest) : Plan :=
  harvest.closings.flatMap Closing.entries

/-- A candidate behind what has to be applied first, as entries of a plan. -/
def Candidate.entries (file : String) (scope : Scope) (candidate : Candidate) : Plan :=
  (candidate.evolution.chain ⟨candidate.node, scope, candidate.node.kind.isDeclaration⟩).map
    (PlanEntry.forNode file candidate.path candidate.node)

section survey

variable [WordSource G]

namespace Survey

/-- The candidate of one kind at a node, if there is one. -/
def tryKind (exclusions : Exclusions) (scope : Scope) (path : Path) (node : Node)
    (kind : EvolutionKind) : Drawing G (List Candidate) := fun words =>
  if exclusions.permitsChain kind scope.qualifiedName then
    match kind.find ⟨node, scope, node.kind.isDeclaration⟩ words with
    | .ok found words => .ok (found.map fun evolution => ⟨evolution, node, path⟩).toList words
    | .error .unsupported words => .ok [] words
    | .error cause words => .error cause words
  else .ok [] words

/-- The candidates of several kinds at a node. -/
def tryKinds (exclusions : Exclusions) (scope : Scope) (path : Path) (node : Node) :
    List EvolutionKind → Drawing G (List Candidate)
  | [] => pure []
  | kind :: kinds => do
    let first ← tryKind exclusions scope path node kind
    let later ← tryKinds exclusions scope path node kinds
    return first ++ later

/-- What one of the candidates, drawn at random, puts into the plan. -/
def choose (file : String) (scope : Scope) (candidates : List Candidate) : Drawing G Plan :=
  if candidates.isEmpty then pure []
  else do
    let index ← modifyGet (WordSource.below candidates.length)
    return candidates[index]?.toList.flatMap (Candidate.entries file scope)

mutual

/-- The survey of a node and everything below it, in the scope around the node. -/
def survey (exclusions : Exclusions) (file : String) (scope : Scope) (path : Path) :
    Node → Drawing G Harvest
  | ⟨kind, text, position, children⟩ => do
    let inner := scope.enter ⟨kind, text, position, children⟩
    let own ← tryKinds exclusions inner path ⟨kind, text, position, children⟩ EvolutionKind.all
    let below ← surveyAll exclusions file inner path 0 children
    if kind.isDeclaration then
      let entries ← choose file inner (own ++ below.loose)
      return ⟨[], below.closings ++ [⟨own ++ below.loose, entries⟩]⟩
    else return ⟨own ++ below.loose, below.closings⟩

/-- The survey of the children of the node at a path, from an index on. -/
def surveyAll (exclusions : Exclusions) (file : String) (scope : Scope) (path : Path)
    (index : Nat) : List Node → Drawing G Harvest
  | [] => pure {}
  | child :: rest => do
    let first ← survey exclusions file scope (path.child index) child
    let later ← surveyAll exclusions file scope path (index + 1) rest
    return first.append later

end

end Survey

/-- The plan of a file, by the survey. -/
def surveyFile (config : PlannerConfig) (source : SourceFile) (words : G) :
    Except PlanningError Plan × G :=
  if source.root.kind = .decl .file then
    match Survey.survey config.exclusions source.path { aliasBound := config.aliasBound } []
        source.root words with
    | .ok harvest words => (.ok harvest.entries, words)
    | .error cause words => (.error (.walk source.path (.evolution cause)), words)
  else (.error (.invalidRoot source.path source.root.kind), words)

end survey

/-! ## Steps and drawings in sequence -/

theorem bind_of_ok {ε σ α β : Type} {step : EStateM ε σ α} {next : α → EStateM ε σ β}
    {before after : σ} {value : α} (h : step before = .ok value after) :
    (step >>= next) before = next value after := by
  change EStateM.bind step next before = _
  simp only [EStateM.bind, h]

theorem bind_of_error {ε σ α β : Type} {step : EStateM ε σ α} {next : α → EStateM ε σ β}
    {before after : σ} {error : ε} (h : step before = .error error after) :
    (step >>= next) before = .error error after := by
  change EStateM.bind step next before = _
  simp only [EStateM.bind, h]

/-- A step with its value passed through a function. -/
theorem map_run {ε σ α β : Type} (f : α → β) (step : EStateM ε σ α) (before : σ) :
    (f <$> step) before =
      match step before with
      | .ok value after => .ok (f value) after
      | .error error after => .error error after := by
  change EStateM.map f step before = _
  unfold EStateM.map
  split <;> rename_i h <;> rw [h]

/-- A sequence comes to a value when its first step does and the rest goes on from there. -/
theorem bind_eq_ok_iff {ε σ α β : Type} {step : EStateM ε σ α} {next : α → EStateM ε σ β}
    {before after : σ} {result : β} :
    (step >>= next) before = .ok result after ↔
      ∃ value between, step before = .ok value between ∧ next value between = .ok result after := by
  rcases h : step before with ⟨value, between⟩ | ⟨error, between⟩
  · rw [bind_of_ok h]
    constructor
    · intro hnext
      exact ⟨value, between, rfl, hnext⟩
    · rintro ⟨_, _, hstep, hnext⟩
      cases hstep
      exact hnext
  · rw [bind_of_error h]
    constructor
    · intro hnext
      cases hnext
    · rintro ⟨_, _, hstep, -⟩
      cases hstep

/-! ## What a walk leaves behind -/

/-- The frames with more candidates in the innermost one, after so many more have come and gone. -/
def Frames.absorb (frames : Frames) (more : List Candidate) (opened : Nat) : Frames where
  stack := frames.stack.modifyHead fun frame =>
    { frame with candidates := frame.candidates ++ more }
  nextSerial := frames.nextSerial + opened

theorem Frames.absorb_nil (frames : Frames) : frames.absorb [] 0 = frames := by
  obtain ⟨stack, nextSerial⟩ := frames
  cases stack <;> simp [absorb]

theorem Frames.absorb_absorb (frames : Frames) (first second : List Candidate) (m n : Nat) :
    (frames.absorb first m).absorb second n = frames.absorb (first ++ second) (m + n) := by
  obtain ⟨stack, nextSerial⟩ := frames
  cases stack <;> simp [absorb, Nat.add_assoc]

namespace Walk

/-- The walk through a file, before the first node. -/
def start (config : PlannerConfig) (words : G) : Walk G where
  scope := { aliasBound := config.aliasBound }
  words := words

/-- The walk after a subtree has brought in a harvest, with so many words left. -/
def absorb (walk : Walk G) (harvest : Harvest) (words : G) : Walk G where
  scope := walk.scope
  frames := walk.frames.absorb harvest.loose harvest.closings.length
  plan := walk.plan ++ harvest.entries
  words := words

theorem absorb_empty (walk : Walk G) (words : G) : walk.absorb {} words = { walk with words } := by
  obtain ⟨scope, frames, plan, _⟩ := walk
  simp [absorb, Frames.absorb_nil, Harvest.entries]

/-- Two harvests one after the other are one harvest. -/
theorem absorb_absorb (walk : Walk G) (first second : Harvest) (words rest : G) :
    (walk.absorb first words).absorb second rest = walk.absorb (first.append second) rest := by
  simp [absorb, Frames.absorb_absorb, Harvest.append, Harvest.entries]

/-- Absorbing a harvest neither opens nor closes a frame. -/
theorem stack_absorb_ne_nil {walk : Walk G} (h : walk.frames.stack ≠ []) (harvest : Harvest)
    (words : G) : (walk.absorb harvest words).frames.stack ≠ [] := by
  obtain ⟨scope, ⟨stack, nextSerial⟩, plan, _⟩ := walk
  cases stack with
  | nil => exact absurd rfl h
  | cons frame rest => exact List.cons_ne_nil _ _

/-! ## Carrying -/

/-- The outcome of a step of the walk is what a drawing says: where that gives a value, the walk
goes on as told, and where it fails, the walk fails for the same cause with the same words left. -/
def Carries {β : Type} (outcome : EStateM.Result WalkError (Walk G) Unit)
    (plain : EStateM.Result EvolutionError G β) (after : β → G → Walk G) : Prop :=
  match plain with
  | .ok value words => outcome = .ok () (after value words)
  | .error cause words => ∃ walk, outcome = .error (.evolution cause) walk ∧ walk.words = words

/-- Steps in sequence carry drawings in sequence. -/
theorem Carries.bind {β γ : Type} {step next : Step G Unit} {plain : Drawing G β}
    {plainNext : β → Drawing G γ} {walk : Walk G} {words : G} {after : β → G → Walk G}
    {afterNext : γ → G → Walk G} (h : Carries (step walk) (plain words) after)
    (hnext : ∀ value rest, plain words = .ok value rest →
      Carries (next (after value rest)) (plainNext value rest) afterNext) :
    Carries ((step >>= fun _ => next) walk) ((plain >>= plainNext) words) afterNext := by
  rcases hplain : plain words with ⟨value, rest⟩ | ⟨cause, rest⟩
  · rw [hplain] at h
    rw [bind_of_ok h, bind_of_ok hplain]
    exact hnext value rest hplain
  · rw [hplain] at h
    obtain ⟨failed, hfailed, hwords⟩ := h
    rw [bind_of_error hfailed, bind_of_error hplain]
    exact ⟨failed, rfl, hwords⟩

/-- Where a step of the walk gives a value, so does the drawing that it carries. -/
theorem Carries.exists_of_ok {β : Type} {after : Walk G} {plain : EStateM.Result EvolutionError G β}
    {absorbed : β → G → Walk G} (h : Carries (.ok () after) plain absorbed) :
    ∃ value words, plain = .ok value words ∧ after = absorbed value words := by
  cases plain with
  | ok value words =>
    cases h
    exact ⟨value, words, rfl, rfl⟩
  | error cause words =>
    obtain ⟨_, hfailed, -⟩ := h
    cases hfailed

theorem Carries.congr {β : Type} {outcome : EStateM.Result WalkError (Walk G) Unit}
    {plain : EStateM.Result EvolutionError G β} {after after' : β → G → Walk G}
    (h : Carries outcome plain after)
    (hafter : ∀ value words, after value words = after' value words) :
    Carries outcome plain after' := by
  obtain rfl : after = after' := funext fun value => funext fun words => hafter value words
  exact h

/-- A step that only changes the state may follow. -/
theorem Carries.modify {β : Type} {step : Step G Unit} {walk : Walk G}
    {plain : EStateM.Result EvolutionError G β} {after : β → G → Walk G}
    (h : Carries (step walk) plain after) (change : Walk G → Walk G) :
    Carries ((step >>= fun _ => modify change) walk) plain
      (fun value words => change (after value words)) := by
  cases plain with
  | ok value words =>
    rw [bind_of_ok h]
    rfl
  | error cause words =>
    obtain ⟨failed, hfailed, hwords⟩ := h
    rw [bind_of_error hfailed]
    exact ⟨failed, rfl, hwords⟩

/-- A drawing that goes on to compute something else is carried by the same step. -/
theorem Carries.map {β γ : Type} {outcome : EStateM.Result WalkError (Walk G) Unit}
    {plain : Drawing G β} {words : G} {after : β → G → Walk G} {afterMap : γ → G → Walk G}
    {f : β → γ} (h : Carries outcome (plain words) after)
    (hafter : ∀ value rest, after value rest = afterMap (f value) rest) :
    Carries outcome ((plain >>= fun value => pure (f value) : Drawing G γ) words) afterMap := by
  rcases hplain : plain words with ⟨value, rest⟩ | ⟨cause, rest⟩
  · rw [hplain] at h
    rw [bind_of_ok hplain]
    exact h.trans (congrArg (EStateM.Result.ok ()) (hafter value rest))
  · rw [hplain] at h
    rw [bind_of_error hplain]
    exact h

end Walk

/-! ## Trying kinds -/

/-- The check of a kind covers the kind itself and, in the same way, all that it may need first. -/
theorem Exclusions.permitsChain_iff {exclusions : Exclusions} {kind : EvolutionKind}
    {name : String} :
    exclusions.permitsChain kind name = true ↔ exclusions.permits kind name = true ∧
      ∀ needed ∈ kind.prerequisites, exclusions.permitsChain needed name = true := by
  rw [permitsChain, Bool.and_eq_true, List.all_eq_true]
  simp only [List.mem_attach, forall_const, Subtype.forall]

/-- Where every kind is permitted by itself, every kind is permitted with all that it may need. -/
theorem Exclusions.permitsChain_of_permits {exclusions : Exclusions} {name : String}
    (h : ∀ kind, exclusions.permits kind name = true) (kind : EvolutionKind) :
    exclusions.permitsChain kind name = true := by
  -- a kind needs only kinds of a lower rank
  induction hrank : kind.rank using Nat.strongRecOn generalizing kind with
  | ind rank ih =>
    refine permitsChain_iff.mpr ⟨h kind, fun needed hneeded => ?_⟩
    have hlt := EvolutionKind.rank_lt_of_mem_prerequisites hneeded
    exact ih needed.rank (hrank ▸ hlt) needed rfl

/-- Without exclusions every kind is permitted, whatever the name. -/
theorem Exclusions.permitsChain_of_isEmpty {exclusions : Exclusions}
    (h : exclusions.isEmpty = true) (kind : EvolutionKind) (name : String) :
    exclusions.permitsChain kind name = true := by
  refine permitsChain_of_permits (fun kind => ?_) kind
  have hnone : (exclusions.entry? kind).isNone = true := by
    simp only [isEmpty, List.all_eq_true] at h
    exact h kind (by cases kind <;> decide)
  rw [Option.isNone_iff_eq_none] at hnone
  simp only [permits, hnone]

namespace Walk

/-- The name that is not computed when there are no exclusions would not matter. -/
theorem permitsChain_ruleName (exclusions : Exclusions) (scope : Scope) (kind : EvolutionKind) :
    exclusions.permitsChain kind (ruleName exclusions scope) =
      exclusions.permitsChain kind scope.qualifiedName := by
  unfold ruleName
  split
  · rename_i h
    rw [Exclusions.permitsChain_of_isEmpty h, Exclusions.permitsChain_of_isEmpty h]
  · rfl

theorem addCandidate_of_ne_nil {walk : Walk G} (h : walk.frames.stack ≠ [])
    (candidate : Candidate) :
    addCandidate candidate walk = .ok () (walk.absorb ⟨[candidate], []⟩ walk.words) := by
  obtain ⟨scope, ⟨stack, nextSerial⟩, plan, words⟩ := walk
  cases stack with
  | nil => exact absurd rfl h
  | cons frame rest =>
    simp only [absorb, Frames.absorb, Harvest.entries, List.flatMap_nil, List.append_nil]
    rfl

variable [WordSource G]

/-- Trying a kind at a node adds the candidate that the survey finds. -/
theorem collectKind_carries (exclusions : Exclusions) (path : Path) (node : Node)
    (kind : EvolutionKind) {walk : Walk G} (h : walk.frames.stack ≠ []) :
    Carries (collectKind exclusions path node kind walk)
      (Survey.tryKind exclusions walk.scope path node kind walk.words)
      (fun found => walk.absorb ⟨found, []⟩) := by
  have hget : (get : Step G (Walk G)) walk = .ok walk walk := rfl
  have hnone : ∀ words : G,
      (EStateM.Result.ok () { walk with words } : EStateM.Result WalkError (Walk G) Unit) =
        .ok () (walk.absorb ⟨[], []⟩ words) :=
    fun words => congrArg _ (absorb_empty walk words).symm
  rw [collectKind, bind_of_ok hget, permitsChain_ruleName, Survey.tryKind]
  by_cases hpermits : exclusions.permitsChain kind walk.scope.qualifiedName = true
  · simp only [if_pos hpermits]
    rcases hfind : kind.find ⟨node, walk.scope, node.kind.isDeclaration⟩ walk.words
      with ⟨found, words⟩ | ⟨cause, words⟩
    · have hfindAt : findAt ⟨node, walk.scope, node.kind.isDeclaration⟩ kind walk =
          .ok found { walk with words } := by
        simp only [findAt, hfind]
      rw [bind_of_ok hfindAt]
      cases found with
      | none => exact hnone words
      | some evolution =>
        have hstack : ({ walk with words } : Walk G).frames.stack ≠ [] := h
        exact addCandidate_of_ne_nil hstack ⟨evolution, node, path⟩
    · cases cause with
      | unsupported =>
        have hfindAt : findAt ⟨node, walk.scope, node.kind.isDeclaration⟩ kind walk =
            .ok none { walk with words } := by
          simp only [findAt, hfind]
        rw [bind_of_ok hfindAt]
        exact hnone words
      | unresolved cause =>
        have hfindAt : findAt ⟨node, walk.scope, node.kind.isDeclaration⟩ kind walk =
            .error (.evolution (.unresolved cause)) { walk with words } := by
          simp only [findAt, hfind]
        rw [bind_of_error hfindAt]
        exact ⟨_, rfl, rfl⟩
  · simp only [if_neg hpermits]
    exact hnone walk.words

/-- Trying several kinds at a node adds the candidates that the survey finds. -/
theorem forM_collectKind_carries (exclusions : Exclusions) (path : Path) (node : Node)
    (kinds : List EvolutionKind) {walk : Walk G} (h : walk.frames.stack ≠ []) :
    Carries (kinds.forM (collectKind exclusions path node) walk)
      (Survey.tryKinds exclusions walk.scope path node kinds walk.words)
      (fun found => walk.absorb ⟨found, []⟩) := by
  induction kinds generalizing walk with
  | nil => exact congrArg _ (absorb_empty walk walk.words).symm
  | cons kind kinds ih =>
    change Carries ((collectKind exclusions path node kind >>= fun _ =>
      kinds.forM (collectKind exclusions path node)) walk) _ _
    rw [Survey.tryKinds]
    refine (collectKind_carries exclusions path node kind h).bind fun first words _ => ?_
    refine (ih (stack_absorb_ne_nil h ⟨first, []⟩ words)).map fun later rest => ?_
    exact absorb_absorb walk ⟨first, []⟩ ⟨later, []⟩ words rest

/-! ## Opening and closing -/

/-- Drawing one of the candidates puts into the plan what the survey puts there. The number that is
drawn is always the number of a candidate. -/
theorem choose_carries (file : String) (candidates : List Candidate) (walk : Walk G) :
    Carries (choose file candidates walk)
      (Survey.choose file walk.scope candidates walk.words)
      (fun entries words => { walk with plan := walk.plan ++ entries, words }) := by
  unfold choose Survey.choose
  by_cases hempty : candidates.isEmpty = true
  · simp only [if_pos hempty]
    change EStateM.Result.ok () walk = EStateM.Result.ok () { walk with plan := walk.plan ++ [] }
    rw [List.append_nil]
  · simp only [if_neg hempty]
    have hpos : 0 < candidates.length := by
      rwa [List.isEmpty_iff, ← ne_eq, ← List.length_pos_iff] at hempty
    rcases hdraw : WordSource.below candidates.length walk.words with ⟨index, words⟩
    have hindex : index < candidates.length := by
      simpa only [hdraw] using WordSource.below_lt hpos walk.words
    have hstep : draw (WordSource.below candidates.length) walk =
        .ok index { walk with words } := by
      change EStateM.Result.ok (WordSource.below candidates.length walk.words).1
        { walk with words := (WordSource.below candidates.length walk.words).2 } = _
      rw [hdraw]
    have hplain : (modifyGet (WordSource.below candidates.length) : Drawing G Nat) walk.words =
        .ok index words := by
      change EStateM.Result.ok (WordSource.below candidates.length walk.words).1
        (WordSource.below candidates.length walk.words).2 = _
      rw [hdraw]
    rw [bind_of_ok hstep, bind_of_ok hplain, List.getElem?_eq_getElem hindex]
    change EStateM.Result.ok () _ = EStateM.Result.ok () _
    simp only [Option.toList_some, List.flatMap_singleton]
    rfl

omit [WordSource G]

/-- The walk with the scope and the frame of a declaration opened. -/
def opened (walk : Walk G) (decl : Decl) : Walk G :=
  { walk with scope := walk.scope.push decl, frames := walk.frames.push.2 }

theorem openScope_of_some {node : Node} {decl : Decl} (h : Decl.ofNode? node = some decl)
    (walk : Walk G) :
    openScope node walk = .ok (some walk.frames.push.1) (walk.opened decl) := by
  simp only [openScope, h]
  rfl

theorem openScope_of_none {node : Node} (h : Decl.ofNode? node = none) (walk : Walk G) :
    openScope node walk = .ok none walk := by
  simp only [openScope, h]
  rfl

/-- The walk with the frame of a declaration closed again, and the scope still open. -/
def closed (walk : Walk G) (decl : Decl) (harvest : Harvest) (words : G) : Walk G where
  scope := walk.scope.push decl
  frames := ⟨walk.frames.stack, walk.frames.nextSerial + 1 + harvest.closings.length⟩
  plan := walk.plan ++ harvest.entries
  words := words

/-- When a declaration is closed, its frame is the innermost one, and holds what its subtree has
left to it. -/
theorem closeFrame_opened_absorb (walk : Walk G) (decl : Decl) (harvest : Harvest) (words : G) :
    closeFrame walk.frames.push.1 ((walk.opened decl).absorb harvest words) =
      .ok harvest.loose (walk.closed decl harvest words) := by
  simp [closeFrame, opened, absorb, closed, Frames.absorb, Frames.push, Frames.pop]

/-- With the chosen entries in the plan and the scope closed, only the plan has grown. -/
theorem closed_eq_absorb (walk : Walk G) (decl : Decl) (harvest : Harvest) (words rest : G)
    (entries : Plan) :
    ({ scope := (walk.closed decl harvest words).scope.pop
       frames := (walk.closed decl harvest words).frames
       plan := (walk.closed decl harvest words).plan ++ entries
       words := rest } : Walk G) =
      walk.absorb ⟨[], harvest.closings ++ [⟨harvest.loose, entries⟩]⟩ rest := by
  obtain ⟨scope, ⟨stack, nextSerial⟩, plan, _⟩ := walk
  have hserial : nextSerial + 1 + harvest.closings.length =
      nextSerial + (harvest.closings.length + 1) := by omega
  cases stack <;>
    simp [closed, absorb, Frames.absorb, Harvest.entries, Scope.push, Scope.pop, hserial]

/-- Closing a declaration leaves the state as it was before it was opened, but for the plan. -/
theorem closeScope_carries [WordSource G] (file : String) (walk : Walk G) (decl : Decl)
    (harvest : Harvest) (words : G) :
    Carries (closeScope file (some walk.frames.push.1) ((walk.opened decl).absorb harvest words))
      (Survey.choose file (walk.scope.push decl) harvest.loose words)
      (fun entries => walk.absorb ⟨[], harvest.closings ++ [⟨harvest.loose, entries⟩]⟩) := by
  rw [closeScope, bind_of_ok (closeFrame_opened_absorb walk decl harvest words)]
  have hchoose := (choose_carries file harvest.loose (walk.closed decl harvest words)).modify
    fun walk => { walk with scope := walk.scope.pop }
  refine hchoose.congr fun entries rest => ?_
  exact closed_eq_absorb walk decl harvest words rest entries

/-! ## The refinement -/

variable [WordSource G]

mutual

/-- A walk through a subtree carries the survey of it, as long as there is a frame for what is
found: the node opens one, or one is open already. -/
theorem visit_carries (exclusions : Exclusions) (file : String) (path : Path) :
    (node : Node) → ∀ {walk : Walk G},
      (node.kind.isDeclaration = true ∨ walk.frames.stack ≠ []) →
      Carries (visit exclusions file path node walk)
        (Survey.survey exclusions file walk.scope path node walk.words) walk.absorb
  | ⟨kind, text, position, children⟩, walk, h => by
    rw [visit, Survey.survey]
    rcases hdecl : Decl.ofNode? ⟨kind, text, position, children⟩ with _ | decl
    · have hkind : kind.isDeclaration = false := Decl.ofNode?_eq_none_iff.mp hdecl
      have hstack : walk.frames.stack ≠ [] := by
        rcases h with h | h
        · exact absurd (hkind.symm.trans h) Bool.false_ne_true
        · exact h
      rw [bind_of_ok (openScope_of_none hdecl walk)]
      simp only [Scope.enter, hdecl, hkind, Bool.false_eq_true, if_false, closeScope,
        bind_pure_unit]
      refine (forM_collectKind_carries exclusions path _ EvolutionKind.all hstack).bind
        fun own words _ => ?_
      refine (visitAll_carries exclusions file path 0 children
        (stack_absorb_ne_nil hstack ⟨own, []⟩ words)).map fun below rest => ?_
      exact absorb_absorb walk ⟨own, []⟩ below words rest
    · have hkind : kind.isDeclaration = true := Decl.isDeclaration_of_ofNode? hdecl
      have hstack : (walk.opened decl).frames.stack ≠ [] := List.cons_ne_nil _ _
      rw [bind_of_ok (openScope_of_some hdecl walk)]
      simp only [Scope.enter, hdecl, hkind, if_true]
      refine (forM_collectKind_carries exclusions path _ EvolutionKind.all hstack).bind
        fun own words _ => ?_
      refine (visitAll_carries exclusions file path 0 children
        (stack_absorb_ne_nil hstack ⟨own, []⟩ words)).bind fun below rest _ => ?_
      rw [absorb_absorb]
      exact (closeScope_carries file walk decl _ rest).map fun entries left => rfl

/-- A walk through the children of a node carries the survey of them. -/
theorem visitAll_carries (exclusions : Exclusions) (file : String) (path : Path) (index : Nat) :
    (children : List Node) → ∀ {walk : Walk G}, walk.frames.stack ≠ [] →
      Carries (visitAll exclusions file path index children walk)
        (Survey.surveyAll exclusions file walk.scope path index children walk.words) walk.absorb
  | [], walk, _ => by
    rw [visitAll, Survey.surveyAll]
    exact congrArg _ (absorb_empty walk walk.words).symm
  | child :: rest, walk, h => by
    rw [visitAll, Survey.surveyAll]
    refine (visit_carries exclusions file (path.child index) child (Or.inr h)).bind
      fun first words _ => ?_
    refine (visitAll_carries exclusions file path (index + 1) rest
      (stack_absorb_ne_nil h first words)).map fun later left => ?_
    exact absorb_absorb walk first later words left

end

end Walk

/-- The plan of a file is the one that the survey makes, and it takes the same words. -/
theorem planFile_eq_surveyFile [WordSource G] (config : PlannerConfig) (source : SourceFile)
    (words : G) : planFile config source words = surveyFile config source words := by
  unfold planFile surveyFile
  by_cases hroot : source.root.kind = .decl .file
  · simp only [if_pos hroot]
    have hdecl : source.root.kind.isDeclaration = true := by rw [hroot]; rfl
    have hcarries : Walk.Carries
        (Walk.visit config.exclusions source.path [] source.root (Walk.start config words))
        (Survey.survey config.exclusions source.path { aliasBound := config.aliasBound } []
          source.root words) (Walk.start config words).absorb :=
      Walk.visit_carries config.exclusions source.path [] source.root (Or.inl hdecl)
    rw [Walk.start] at hcarries
    rcases hsurvey : Survey.survey config.exclusions source.path
      { aliasBound := config.aliasBound } [] source.root words with ⟨harvest, rest⟩ | ⟨cause, rest⟩
    · simp only [hsurvey, Walk.Carries] at hcarries
      rw [hcarries]
      rfl
    · simp only [hsurvey, Walk.Carries] at hcarries
      obtain ⟨failed, hfailed, hwords⟩ := hcarries
      rw [hfailed, ← hwords]
  · simp only [if_neg hroot]

end SourceEvolution
