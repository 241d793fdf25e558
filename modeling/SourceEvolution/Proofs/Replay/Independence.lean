import SourceEvolution.Proofs.Replay.Frame

/-!
# Independent entries

Two neighbours in a plan can change places if they have nothing to do with each other: they are for
different files, or neither is for a node at or below the node of the other. The replay then leads
to the same file, and it fails in one order exactly if it fails in the other. What it reports may be
different in one case only: if both entries fail, the first of them is reported.

* **Steps** (`replayEntry_eq_error_iff`): whether an entry can be applied depends on the node that
  its path leads to, and on nothing else.
* **Two steps** (`exists_replayEntry_both`, `bind_replayEntry_swap`): independent entries for one
  file, applied in both orders to one tree.
* **Replay** (`replay_swap_cases`, `replay_swap`): the same two entries as neighbours in a plan.
-/

namespace SourceEvolution

/-- Two entries are independent: they are for different files, or neither of their paths leads
through the node of the other. -/
def PlanEntry.Independent (first second : PlanEntry) : Prop :=
  first.file ≠ second.file ∨ ¬ first.path <+: second.path ∧ ¬ second.path <+: first.path

instance (first second : PlanEntry) : Decidable (first.Independent second) :=
  inferInstanceAs (Decidable (_ ∨ _ ∧ _))

/-! ## Steps -/

section step

variable {root after : Node} {entry : PlanEntry} {error : ReplayError}

/-- An entry fails if its path leads nowhere, or to a node that does not accept the change. -/
theorem replayEntry_eq_error_iff :
    replayEntry root entry = .error error ↔
      root.nodeAt? entry.path = none ∧ error = .pathNotFound entry.location ∨
        ∃ node, root.nodeAt? entry.path = some node ∧ entry.evolution.applyTo? node = none ∧
          error = .notAccepted entry.location entry.evolution.kind := by
  unfold replayEntry
  rcases hnode : root.nodeAt? entry.path with _ | node
  · simp [eq_comm]
  · rcases hchanged : entry.evolution.applyTo? node with _ | changed
    · simp [hchanged, eq_comm]
    · -- a node that has been found can be replaced
      obtain ⟨replaced, hreplaced⟩ := Node.exists_replaceAt?_of_nodeAt? hnode changed
      simp [hchanged, hreplaced]

/-- Trees in which the path leads to the same node have the entry fail in the same way. -/
theorem replayEntry_eq_error_of_nodeAt?_eq
    (hnode : after.nodeAt? entry.path = root.nodeAt? entry.path)
    (h : replayEntry root entry = .error error) : replayEntry after entry = .error error := by
  rw [replayEntry_eq_error_iff] at h ⊢
  rw [hnode]
  exact h

end step

/-! ## Two steps -/

section steps

variable {root after₁ after₂ : Node} {entry₁ entry₂ : PlanEntry} {error : ReplayError}

/-- Where an entry fails, it still fails after an unrelated one. -/
theorem replayEntry_eq_error_of_unrelated (h₁ : replayEntry root entry₁ = .ok after₁)
    (h₂ : replayEntry root entry₂ = .error error) (hbelow : ¬ entry₁.path <+: entry₂.path)
    (habove : ¬ entry₂.path <+: entry₁.path) : replayEntry after₁ entry₂ = .error error := by
  obtain ⟨changed, hchanged⟩ := exists_replaceAt?_of_replayEntry h₁
  apply replayEntry_eq_error_of_nodeAt?_eq _ h₂
  exact Node.nodeAt?_replaceAt?_of_unrelated hchanged hbelow habove

/-- Two unrelated entries that can both be applied can be applied after each other, with the same
outcome. -/
theorem exists_replayEntry_both (h₁ : replayEntry root entry₁ = .ok after₁)
    (h₂ : replayEntry root entry₂ = .ok after₂) (hbelow : ¬ entry₁.path <+: entry₂.path)
    (habove : ¬ entry₂.path <+: entry₁.path) :
    ∃ both, replayEntry after₁ entry₂ = .ok both ∧ replayEntry after₂ entry₁ = .ok both := by
  obtain ⟨node₁, changed₁, hnode₁, hchanged₁, hafter₁⟩ := replayEntry_eq_ok_iff.mp h₁
  obtain ⟨node₂, changed₂, hnode₂, hchanged₂, hafter₂⟩ := replayEntry_eq_ok_iff.mp h₂
  obtain ⟨both, hboth₁, hboth₂⟩ := Node.exists_replaceAt?_both hafter₁ hafter₂ hbelow habove
  refine ⟨both, replayEntry_eq_ok_iff.mpr ?_, replayEntry_eq_ok_iff.mpr ?_⟩
  · refine ⟨node₂, changed₂, ?_, hchanged₂, hboth₁⟩
    rw [Node.nodeAt?_replaceAt?_of_unrelated hafter₁ hbelow habove, hnode₂]
  · refine ⟨node₁, changed₁, ?_, hchanged₁, hboth₂⟩
    rw [Node.nodeAt?_replaceAt?_of_unrelated hafter₂ habove hbelow, hnode₁]

/-- Two unrelated entries lead to the same outcome in both orders, unless both of them fail. -/
theorem bind_replayEntry_swap (root : Node) (hbelow : ¬ entry₁.path <+: entry₂.path)
    (habove : ¬ entry₂.path <+: entry₁.path) :
    (replayEntry root entry₁ >>= fun after => replayEntry after entry₂) =
        (replayEntry root entry₂ >>= fun after => replayEntry after entry₁) ∨
      ∃ error₁ error₂, replayEntry root entry₁ = .error error₁ ∧
        replayEntry root entry₂ = .error error₂ := by
  rcases h₁ : replayEntry root entry₁ with error₁ | after₁
  · rcases h₂ : replayEntry root entry₂ with error₂ | after₂
    · exact .inr ⟨error₁, error₂, rfl, rfl⟩
    · left
      exact (replayEntry_eq_error_of_unrelated h₂ h₁ habove hbelow).symm
  · left
    rcases h₂ : replayEntry root entry₂ with error₂ | after₂
    · exact replayEntry_eq_error_of_unrelated h₁ h₂ hbelow habove
    · obtain ⟨both, hboth₁, hboth₂⟩ := exists_replayEntry_both h₁ h₂ hbelow habove
      exact hboth₁.trans hboth₂.symm

end steps

/-! ## Replay -/

section replay

variable {source : SourceFile} {first second : PlanEntry}

/-- A plan in two parts is replayed part by part. -/
theorem replay_append (source : SourceFile) (earlier later : Plan) :
    replay source (earlier ++ later) =
      (replay source earlier >>= fun between => replay between later) := by
  unfold replay Plan.entriesFor
  rw [List.filter_append, List.foldlM_append]
  simp only [bind_assoc, pure_bind]

/-- An entry for the file is applied first. -/
theorem replay_cons_of_file (hfile : first.file = source.path) (later : Plan) :
    replay source (first :: later) =
      (replayEntry source.root first >>= fun root => replay { source with root } later) := by
  unfold replay Plan.entriesFor
  rw [List.filter_cons_of_pos (by simp [hfile]), List.foldlM_cons, bind_assoc]

theorem replay_cons_cons_of_file (hfirst : first.file = source.path)
    (hsecond : second.file = source.path) (later : Plan) :
    replay source (first :: second :: later) =
      ((replayEntry source.root first >>= fun root => replayEntry root second) >>=
        fun root => replay { source with root } later) := by
  rw [replay_cons_of_file hfirst, bind_assoc]
  congr 1
  funext root
  apply replay_cons_of_file
  exact hsecond

/-- Entries of which one is for another file come in one order only. -/
theorem entriesFor_swap {file : String} (h : ¬ (first.file = file ∧ second.file = file))
    (later : Plan) :
    Plan.entriesFor (first :: second :: later) file =
      Plan.entriesFor (second :: first :: later) file := by
  unfold Plan.entriesFor
  simp only [List.filter_cons, beq_iff_eq]
  split_ifs with hfirst hsecond
  · exact absurd ⟨hfirst, hsecond⟩ h
  · rfl
  · rfl
  · rfl

/-- Independent entries at the start of a plan can be swapped without a difference, unless both of
them fail. -/
theorem replay_cons_cons_swap (source : SourceFile) (h : first.Independent second) (later : Plan) :
    replay source (first :: second :: later) = replay source (second :: first :: later) ∨
      ∃ error₁ error₂, replayEntry source.root first = .error error₁ ∧
        replayEntry source.root second = .error error₂ ∧
        replay source (first :: second :: later) = .error error₁ ∧
        replay source (second :: first :: later) = .error error₂ := by
  by_cases hfile : first.file = source.path ∧ second.file = source.path
  · obtain ⟨hfirst, hsecond⟩ := hfile
    obtain ⟨hbelow, habove⟩ := h.resolve_left (fun hne => hne (hfirst.trans hsecond.symm))
    rw [replay_cons_cons_of_file hfirst hsecond, replay_cons_cons_of_file hsecond hfirst]
    rcases bind_replayEntry_swap source.root hbelow habove with hswap | ⟨error₁, error₂, h₁, h₂⟩
    · left
      rw [hswap]
    · right
      refine ⟨error₁, error₂, h₁, h₂, ?_, ?_⟩
      · rw [h₁]
        rfl
      · rw [h₂]
        rfl
  · left
    unfold replay
    rw [entriesFor_swap hfile]

/-- Independent neighbours of a plan can be swapped without a difference, unless the replay comes to
them and both fail. -/
theorem replay_swap_cases (source : SourceFile) (earlier later : Plan)
    (h : first.Independent second) :
    replay source (earlier ++ first :: second :: later) =
        replay source (earlier ++ second :: first :: later) ∨
      ∃ between error₁ error₂, replay source earlier = .ok between ∧
        replayEntry between.root first = .error error₁ ∧
        replayEntry between.root second = .error error₂ ∧
        replay source (earlier ++ first :: second :: later) = .error error₁ ∧
        replay source (earlier ++ second :: first :: later) = .error error₂ := by
  rw [replay_append source earlier (first :: second :: later),
    replay_append source earlier (second :: first :: later)]
  rcases replay source earlier with error | between
  · exact .inl rfl
  · rcases replay_cons_cons_swap between h later with hswap | ⟨error₁, error₂, h₁, h₂, hr₁, hr₂⟩
    · exact .inl hswap
    · exact .inr ⟨between, error₁, error₂, rfl, h₁, h₂, hr₁, hr₂⟩

end replay

/-- Independent neighbours of a plan can be swapped. For every file and every plan with two such
entries next to each other, the replay gives the same file in both orders, and it fails in one order
exactly if it fails in the other. The two outcomes are different only if both fail, because the
entries before the two can be replayed and then each of the two fails on the tree that these leave:
the one that comes first is reported. -/
theorem replay_swap (source : SourceFile) (earlier later : Plan) {first second : PlanEntry}
    (h : first.Independent second) :
    (∀ evolved, replay source (earlier ++ first :: second :: later) = .ok evolved ↔
      replay source (earlier ++ second :: first :: later) = .ok evolved) ∧
    ((∃ error, replay source (earlier ++ first :: second :: later) = .error error) ↔
      ∃ error, replay source (earlier ++ second :: first :: later) = .error error) ∧
    (replay source (earlier ++ first :: second :: later) ≠
        replay source (earlier ++ second :: first :: later) →
      ∃ between error₁ error₂, replay source earlier = .ok between ∧
        replayEntry between.root first = .error error₁ ∧
        replayEntry between.root second = .error error₂ ∧
        replay source (earlier ++ first :: second :: later) = .error error₁ ∧
        replay source (earlier ++ second :: first :: later) = .error error₂) := by
  rcases replay_swap_cases source earlier later h with hswap |
    ⟨between, error₁, error₂, hearlier, hfirst, hsecond, h₁, h₂⟩
  · rw [hswap]
    exact ⟨fun _ => Iff.rfl, Iff.rfl, fun hne => absurd rfl hne⟩
  · refine ⟨?_, ?_, fun _ => ⟨between, error₁, error₂, hearlier, hfirst, hsecond, h₁, h₂⟩⟩
    · intro evolved
      rw [h₁, h₂]
      simp
    · rw [h₁, h₂]
      simp

/-- The initializer of the point is written out with a parameter. -/
def Sample.pointInitializer : PlanEntry :=
  ⟨"Point@0.1", "Point", [0, 1], .synthesizeInitializers ⟨[[⟨"x", Build.simpleType "Int"⟩]]⟩⟩

/-- The function that moves the point is given another default. -/
def Sample.pointMove : PlanEntry :=
  ⟨"Point@0.1.2", "Point", [0, 1, 2], .changeDefaultArgument ⟨0, "2"⟩⟩

/-- The parameter of the initializer that has been written out is given a default. -/
def Sample.pointStart : PlanEntry :=
  ⟨"Point@0.1.3", "Point", [0, 1, 3], .changeDefaultArgument ⟨0, "3"⟩⟩

/-- The initializer and the function are put first. -/
def Sample.pointOrder : PlanEntry :=
  ⟨"Point@0.1", "Point", [0, 1], .shuffleMembers ⟨[3, 2]⟩⟩

/-- The two changes of defaults can be swapped, although one of them is for an initializer that the
entry before them adds, and the entry behind them moves both. -/
theorem replay_swap_pointFile :
    Sample.pointMove.Independent Sample.pointStart ∧
    ∃ evolved, evolved ≠ Sample.pointFile ∧
      replay Sample.pointFile ([Sample.pointInitializer] ++
        Sample.pointMove :: Sample.pointStart :: [Sample.pointOrder]) = .ok evolved ∧
      replay Sample.pointFile ([Sample.pointInitializer] ++
        Sample.pointStart :: Sample.pointMove :: [Sample.pointOrder]) = .ok evolved := by
  have hindependent : Sample.pointMove.Independent Sample.pointStart := by decide
  have hswap := (replay_swap Sample.pointFile [Sample.pointInitializer] [Sample.pointOrder]
    hindependent).1
  have hchanged : (replay Sample.pointFile ([Sample.pointInitializer] ++
      Sample.pointMove :: Sample.pointStart :: [Sample.pointOrder])).toOption.any
        (fun evolved => evolved ≠ Sample.pointFile) = true := by
    decide +kernel
  rcases hreplay : replay Sample.pointFile ([Sample.pointInitializer] ++
    Sample.pointMove :: Sample.pointStart :: [Sample.pointOrder]) with error | evolved
  · rw [hreplay] at hchanged
    cases hchanged
  · rw [hreplay] at hchanged
    exact ⟨hindependent, evolved, of_decide_eq_true hchanged, rfl, (hswap evolved).mp hreplay⟩

end SourceEvolution
