import Mathlib.Data.List.Induction
import Mathlib.Tactic.Common

/-!
# Confined walks

A path is a list of components that stay, go up or go down to a named entry of
a directory.  A walk that may not leave the directory where it starts fails at
its first bad step.  What it reaches otherwise is found by going down from the
start, never to a link, along the names that remain when every step up takes
back the name before it.
-/

namespace HttpCerver.Walk

inductive Kind
  | directory
  | regular
  | link
  | special
  deriving DecidableEq

inductive Component (Name : Type*)
  | stay
  | up
  | down (name : Name)
  deriving DecidableEq

inductive Failure
  | escape
  | link
  | missing
  | notDirectory
  | nameTooLong
  | denied
  deriving DecidableEq

/-- A tree of directories.  Only directories have entries, and the directory
of an entry is its parent. -/
structure Hierarchy (Node Name : Type*) where
  kind : Node → Kind
  entry : Node → Name → Option Node
  parent : Node → Node
  searchable : Node → Bool
  readable : Node → Bool
  nameFits : Name → Bool
  directory_of_entry : ∀ {directory node : Node} {name : Name},
    entry directory name = some node → kind directory = .directory
  parent_of_entry : ∀ {directory node : Node} {name : Name},
    entry directory name = some node → parent node = directory

variable {Node Name : Type*} [DecidableEq Node] (tree : Hierarchy Node Name)

/-- One component of a walk that is confined to `start`. -/
def step (start current : Node) (component : Component Name) :
    Except Failure Node :=
  if tree.kind current ≠ .directory then .error .notDirectory
  else if ¬ tree.searchable current then .error .denied
  else
    match component with
    | .stay => .ok current
    | .up =>
      if current = start then .error .escape else .ok (tree.parent current)
    | .down name =>
      if ¬ tree.nameFits name then .error .nameTooLong
      else
        match tree.entry current name with
        | none => .error .missing
        | some node =>
          if tree.kind node = .link then .error .link else .ok node

def follow (start : Node) :
    Node → List (Component Name) → Except Failure Node
  | current, [] => .ok current
  | current, component :: rest =>
    match step tree start current component with
    | .error failure => .error failure
    | .ok next => follow start next rest

/-- Walks to an object and opens it. -/
def reach (start : Node) (components : List (Component Name)) :
    Except Failure Node :=
  match follow tree start start components with
  | .error failure => .error failure
  | .ok node => if tree.readable node then .ok node else .error .denied

/-- The names, the last one first, that lead down from `start` to a node
without passing a link. -/
inductive Beneath (start : Node) : List Name → Node → Prop
  | start : Beneath start [] start
  | entry {directory node : Node} {name : Name} {names : List Name}
      (hbeneath : Beneath start names directory)
      (hentry : tree.entry directory name = some node)
      (hkind : tree.kind node ≠ .link) :
      Beneath start (name :: names) node

/-- The names that remain of a list of components, the last one first. -/
def normalise : List Name → List (Component Name) → Option (List Name)
  | names, [] => some names
  | names, .stay :: rest => normalise names rest
  | [], .up :: _ => none
  | _ :: names, .up :: rest => normalise names rest
  | names, .down name :: rest => normalise (name :: names) rest

/-- The first bad step of a walk. -/
def FailsAt (start current : Node) (components : List (Component Name))
    (failure : Failure) : Prop :=
  ∃ before component after node, components = before ++ component :: after ∧
    follow tree start current before = .ok node ∧
    step tree start node component = .error failure

variable {tree}

section Step

variable {start current : Node}

/-- Everything a step can do. -/
inductive Outcome (tree : Hierarchy Node Name) (start current : Node) :
    Component Name → Except Failure Node → Prop
  | notDirectory {component : Component Name}
      (hkind : tree.kind current ≠ .directory) :
      Outcome tree start current component (.error .notDirectory)
  | unsearchable {component : Component Name}
      (hsearch : tree.searchable current = false) :
      Outcome tree start current component (.error .denied)
  | stay (hkind : tree.kind current = .directory) :
      Outcome tree start current .stay (.ok current)
  | escape (hstart : current = start) :
      Outcome tree start current .up (.error .escape)
  | up (hne : current ≠ start) :
      Outcome tree start current .up (.ok (tree.parent current))
  | nameTooLong {name : Name} (hkind : tree.kind current = .directory)
      (hfits : tree.nameFits name = false) :
      Outcome tree start current (.down name) (.error .nameTooLong)
  | missing {name : Name} (hentry : tree.entry current name = none) :
      Outcome tree start current (.down name) (.error .missing)
  | link {name : Name} {node : Node}
      (hentry : tree.entry current name = some node)
      (hkind : tree.kind node = .link) :
      Outcome tree start current (.down name) (.error .link)
  | down {name : Name} {node : Node}
      (hentry : tree.entry current name = some node)
      (hkind : tree.kind node ≠ .link) :
      Outcome tree start current (.down name) (.ok node)

theorem step_spec (tree : Hierarchy Node Name) (start current : Node)
    (component : Component Name) :
    Outcome tree start current component
      (step tree start current component) := by
  unfold step
  by_cases hkind : tree.kind current ≠ .directory
  · rw [if_pos hkind]
    exact .notDirectory hkind
  rw [if_neg hkind]
  have hdirectory : tree.kind current = .directory := not_not.mp hkind
  by_cases hsearch : ¬ tree.searchable current
  · rw [if_pos hsearch]
    exact .unsearchable (by simpa using hsearch)
  rw [if_neg hsearch]
  cases component with
  | stay => exact .stay hdirectory
  | up =>
      dsimp only
      by_cases hstart : current = start
      · rw [if_pos hstart]
        exact .escape hstart
      · rw [if_neg hstart]
        exact .up hstart
  | down name =>
      dsimp only
      by_cases hfits : ¬ tree.nameFits name
      · rw [if_pos hfits]
        exact .nameTooLong hdirectory (by simpa using hfits)
      rw [if_neg hfits]
      cases hentry : tree.entry current name with
      | none => exact .missing hentry
      | some node =>
          dsimp only
          by_cases hlink : tree.kind node = .link
          · rw [if_pos hlink]
            exact .link hentry hlink
          · rw [if_neg hlink]
            exact .down hentry hlink

/-- Where one cannot stay, one cannot go on. -/
theorem step_of_stay_error {failure : Failure}
    (hstay : step tree start current .stay = .error failure)
    (component : Component Name) :
    step tree start current component = .error failure := by
  unfold step at hstay ⊢
  by_cases hkind : tree.kind current ≠ .directory
  · rw [if_pos hkind] at hstay ⊢
    exact hstay
  rw [if_neg hkind] at hstay ⊢
  by_cases hsearch : ¬ tree.searchable current
  · rw [if_pos hsearch] at hstay ⊢
    exact hstay
  rw [if_neg hsearch] at hstay
  cases hstay

end Step

section Follow

variable {start current node : Node}
variable {components before after : List (Component Name)}

theorem follow_append (before after : List (Component Name)) :
    follow tree start current (before ++ after) =
      (follow tree start current before).bind
        fun node => follow tree start node after := by
  induction before generalizing current with
  | nil => rfl
  | cons component before ih =>
      rw [List.cons_append, follow, follow]
      cases step tree start current component with
      | error failure => rfl
      | ok next => exact ih

/-- A walk that fails has a first bad step, and that is what it reports. -/
theorem follow_eq_error_iff {failure : Failure} :
    follow tree start current components = .error failure ↔
      FailsAt tree start current components failure := by
  constructor
  · intro hfails
    induction components generalizing current with
    | nil => cases hfails
    | cons component rest ih =>
        rw [follow] at hfails
        cases hstep : step tree start current component with
        | error found =>
            rw [hstep] at hfails
            cases hfails
            exact ⟨[], component, rest, current, rfl, rfl, hstep⟩
        | ok next =>
            rw [hstep] at hfails
            obtain ⟨before, later, after, node, hsplit, hbefore, hlater⟩ :=
              ih hfails
            refine ⟨component :: before, later, after, node, ?_, ?_, hlater⟩
            · rw [hsplit, List.cons_append]
            · rw [follow, hstep]
              exact hbefore
  · rintro ⟨before, component, after, node, rfl, hbefore, hstep⟩
    rw [follow_append, hbefore, Except.bind, follow, hstep]

/-- A walk that goes well stays beneath its start and ends where the
remaining names lead. -/
theorem follow_beneath {names : List Name}
    (hbeneath : Beneath tree start names current)
    (hfollow : follow tree start current components = .ok node) :
    ∃ names', normalise names components = some names' ∧
      Beneath tree start names' node := by
  induction components generalizing current names with
  | nil =>
      cases hfollow
      exact ⟨names, by rw [normalise], hbeneath⟩
  | cons component rest ih =>
      rw [follow] at hfollow
      cases hstep : step tree start current component with
      | error failure =>
          rw [hstep] at hfollow
          cases hfollow
      | ok next =>
          have houtcome := step_spec tree start current component
          rw [hstep] at hfollow houtcome
          cases houtcome with
          | stay =>
              rw [normalise]
              exact ih hbeneath hfollow
          | up hne =>
              cases hbeneath with
              | start => exact absurd rfl hne
              | entry hparent hentry hkind =>
                  rw [tree.parent_of_entry hentry] at hfollow
                  rw [normalise]
                  exact ih hparent hfollow
          | down hentry hkind =>
              rw [normalise]
              exact ih (hbeneath.entry hentry hkind) hfollow

theorem follow_of_reach {root : Node}
    (hreach : reach tree root components = .ok node) :
    follow tree root root components = .ok node := by
  rw [reach] at hreach
  cases hfollow : follow tree root root components with
  | error failure =>
      rw [hfollow] at hreach
      cases hreach
  | ok found =>
      rw [hfollow] at hreach
      dsimp only at hreach
      split_ifs at hreach
      cases hreach
      rfl

theorem reach_of_failsAt {root : Node} {failure : Failure}
    (hfails : FailsAt tree root root components failure) :
    reach tree root components = .error failure := by
  rw [reach, follow_eq_error_iff.mpr hfails]

/-- A walk to an object that cannot be opened, or one with a bad step. -/
theorem failsAt_of_reach {root : Node} {failure : Failure}
    (hreach : reach tree root components = .error failure) :
    FailsAt tree root root components failure ∨
      ∃ node, follow tree root root components = .ok node ∧
        tree.readable node = false := by
  rw [reach] at hreach
  cases hfollow : follow tree root root components with
  | error found =>
      rw [hfollow] at hreach
      cases hreach
      exact .inl (follow_eq_error_iff.mp hfollow)
  | ok node =>
      rw [hfollow] at hreach
      dsimp only at hreach
      split_ifs at hreach with hreadable
      exact .inr ⟨node, rfl, by simpa using hreadable⟩

/-- A single name leads to an entry. -/
theorem entry_of_follow {root : Node} {name : Name}
    (hfollow : follow tree root root [.down name] = .ok node) :
    tree.entry root name = some node := by
  rw [follow] at hfollow
  have houtcome := step_spec tree root root (.down name)
  cases hstep : step tree root root (.down name) with
  | error failure =>
      rw [hstep] at hfollow
      cases hfollow
  | ok next =>
      rw [hstep] at hfollow houtcome
      cases hfollow
      cases houtcome with
      | down hentry _ => exact hentry

/-- The only step to a single name is the first one. -/
theorem step_of_failsAt {root : Node} {component : Component Name}
    {failure : Failure}
    (hfails : FailsAt tree root root [component] failure) :
    step tree root root component = .error failure := by
  have hfollow := follow_eq_error_iff.mpr hfails
  rw [follow] at hfollow
  cases hstep : step tree root root component with
  | error found =>
      rw [hstep] at hfollow
      exact hfollow
  | ok next =>
      rw [hstep] at hfollow
      cases hfollow

/-- Staying before a walk that goes on changes nothing. -/
theorem follow_stay (hcomponents : components ≠ []) :
    follow tree start current (.stay :: components) =
      follow tree start current components := by
  obtain ⟨component, rest, rfl⟩ := List.exists_cons_of_ne_nil hcomponents
  cases hstay : step tree start current (.stay : Component Name) with
  | error failure =>
      rw [follow, hstay, follow, step_of_stay_error hstay component]
  | ok next =>
      have houtcome := step_spec tree start current (.stay : Component Name)
      rw [hstay] at houtcome
      cases houtcome with
      | stay => rw [follow, hstay]

/-- A walk that ends at something other than a directory has gone down to it
in its last step. -/
theorem follow_last (hcomponents : components ≠ [])
    (hkind : tree.kind node ≠ .directory)
    (hfollow : follow tree start start components = .ok node) :
    ∃ before name directory, components = before ++ [.down name] ∧
      follow tree start start before = .ok directory ∧
      tree.entry directory name = some node := by
  cases components using List.reverseRecOn with
  | nil => exact absurd rfl hcomponents
  | append_singleton before component =>
      rw [follow_append] at hfollow
      cases hbefore : follow tree start start before with
      | error failure =>
          rw [hbefore] at hfollow
          cases hfollow
      | ok directory =>
          rw [hbefore, Except.bind, follow] at hfollow
          obtain ⟨names, -, hbeneath⟩ := follow_beneath .start hbefore
          cases hstep : step tree start directory component with
          | error failure =>
              rw [hstep] at hfollow
              cases hfollow
          | ok next =>
              have houtcome := step_spec tree start directory component
              rw [hstep] at hfollow houtcome
              cases hfollow
              cases houtcome with
              | stay hdirectory => exact absurd hdirectory hkind
              | up hne =>
                  cases hbeneath with
                  | start => exact absurd rfl hne
                  | entry hparent hentry _ =>
                      rw [tree.parent_of_entry hentry] at hkind
                      exact absurd (tree.directory_of_entry hentry) hkind
              | down hentry _ =>
                  exact ⟨before, _, directory, rfl, hbefore, hentry⟩

/-- A step down from where a walk has ended is the walk of one name from
there. -/
theorem reach_snoc {root directory : Node}
    (hreach : reach tree root components = .ok directory) (name : Name) :
    reach tree root (components ++ [.down name]) =
      reach tree directory [.down name] := by
  have hstep : step tree root directory (.down name) =
      step tree directory directory (.down name) := rfl
  rw [reach, follow_append, follow_of_reach hreach, Except.bind, follow, hstep,
    reach, follow]
  cases step tree directory directory (.down name) <;> rfl

end Follow

/-- Two trees that look the same from `start` downwards. -/
structure SameBeneath (tree tree' : Hierarchy Node Name) (start : Node) :
    Prop where
  kind : ∀ {names node}, Beneath tree start names node →
    tree'.kind node = tree.kind node
  searchable : ∀ {names node}, Beneath tree start names node →
    tree'.searchable node = tree.searchable node
  readable : ∀ {names node}, Beneath tree start names node →
    tree'.readable node = tree.readable node
  entry : ∀ {names directory}, Beneath tree start names directory →
    tree'.entry directory = tree.entry directory
  entryKind : ∀ {names directory name node},
    Beneath tree start names directory →
      tree.entry directory name = some node →
        tree'.kind node = tree.kind node
  nameFits : tree'.nameFits = tree.nameFits

section Agreement

variable {tree' : Hierarchy Node Name} {start current directory node : Node}
variable {names more : List Name}

omit [DecidableEq Node] in
theorem Beneath.append (h : Beneath tree start names directory)
    (hmore : Beneath tree directory more node) :
    Beneath tree start (more ++ names) node := by
  induction hmore with
  | start => exact h
  | entry hbeneath hentry hkind ih => exact ih.entry hentry hkind

omit [DecidableEq Node] in
theorem SameBeneath.descend (h : SameBeneath tree tree' start)
    (hbeneath : Beneath tree start names directory) :
    SameBeneath tree tree' directory where
  kind hnode := h.kind (hbeneath.append hnode)
  searchable hnode := h.searchable (hbeneath.append hnode)
  readable hnode := h.readable (hbeneath.append hnode)
  entry hnode := h.entry (hbeneath.append hnode)
  entryKind hnode := h.entryKind (hbeneath.append hnode)
  nameFits := h.nameFits

omit [DecidableEq Node] in
/-- The parent of a node beneath the start is the same in both trees. -/
theorem SameBeneath.parent (h : SameBeneath tree tree' start)
    (hbeneath : Beneath tree start names current) (hne : current ≠ start) :
    tree'.parent current = tree.parent current := by
  cases hbeneath with
  | start => exact absurd rfl hne
  | entry hdirectory hentry _ =>
      have hentry' := hentry
      rw [← h.entry hdirectory] at hentry'
      rw [tree.parent_of_entry hentry, tree'.parent_of_entry hentry']

theorem SameBeneath.step (h : SameBeneath tree tree' start)
    (hbeneath : Beneath tree start names current)
    (component : Component Name) :
    step tree' start current component = step tree start current component := by
  unfold Walk.step
  rw [h.kind hbeneath, h.searchable hbeneath]
  congr 2
  cases component with
  | stay => rfl
  | up =>
      dsimp only
      split_ifs with hstart
      · rfl
      · rw [h.parent hbeneath hstart]
  | down name =>
      dsimp only
      rw [h.nameFits, h.entry hbeneath]
      congr 1
      cases hentry : tree.entry current name with
      | none => rfl
      | some found =>
          dsimp only
          rw [h.entryKind hbeneath hentry]

theorem SameBeneath.follow (h : SameBeneath tree tree' start)
    (hbeneath : Beneath tree start names current)
    (components : List (Component Name)) :
    follow tree' start current components =
      follow tree start current components := by
  induction components generalizing current names with
  | nil => rfl
  | cons component rest ih =>
      rw [Walk.follow, Walk.follow, h.step hbeneath]
      cases hstep : Walk.step tree start current component with
      | error failure => rfl
      | ok next =>
          have hfollow : Walk.follow tree start current [component] =
              .ok next := by
            rw [Walk.follow, hstep]
            rfl
          obtain ⟨names', -, hnext⟩ := follow_beneath hbeneath hfollow
          exact ih hnext

/-- A confined walk sees nothing but what is beneath its start. -/
theorem SameBeneath.reach (h : SameBeneath tree tree' start)
    (components : List (Component Name)) :
    reach tree' start components = reach tree start components := by
  rw [Walk.reach, Walk.reach, h.follow .start]
  cases hfollow : Walk.follow tree start start components with
  | error failure => rfl
  | ok found =>
      obtain ⟨names, -, hfound⟩ := follow_beneath .start hfollow
      dsimp only
      rw [h.readable hfound]

end Agreement

end HttpCerver.Walk
