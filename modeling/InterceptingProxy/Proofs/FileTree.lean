import Mathlib.Data.List.Basic
import InterceptingProxy.FileTree
import InterceptingProxy.Proofs.Text.Cutting

set_option autoImplicit false

/-! # Paths and files

A walk passes through directories alone, so a node that is put elsewhere does not turn it aside
(`walk_put`), and what it ends at is what stands there (`node?_of_walk`). The path of the working
directory leads there (`find_root`), and the path of an entry of a directory leads where the name
leads from that directory (`find_join`), so every node is found by its path (`Sound.find_join`).

Whatever the path looks like, a file that is opened for appending is afterwards found under that
path with the content it had before (`find_of_openAppend`), and it opens again without a change to
the tree (`openAppend_of_find`). Appending moves nothing: the path leads to the same file with more
in it (`find_append`). -/

namespace InterceptingProxy.FileTree

variable {t next : FileTree} {names start target : List Text} {steps front back : List Text}
  {path : Text} {node : FileNode} {content : Bytes}

/-! ## Nodes -/

/-- The working directory is there, and so is what is above it. -/
theorem node?_of_isPrefix (h : names <+: t.rootNames) : t.node? names = some .directory := if_pos h

theorem node?_of_not_isPrefix (h : ¬ names <+: t.rootNames) :
    t.node? names = (t.nodes.find? fun (n, _) => n = names).map Prod.snd := if_neg h

@[simp] theorem node?_nil (t : FileTree) : t.node? [] = some .directory :=
  node?_of_isPrefix List.nil_prefix

@[simp] theorem rootNames_put (t : FileTree) (names : List Text) (node : FileNode) :
    (t.put names node).rootNames = t.rootNames := rfl

/-- What is left of the nodes when those with certain names are taken away. -/
theorem find?_filter_names (nodes : List (List Text × FileNode)) (names other : List Text) :
    (nodes.filter fun (n, _) => n ≠ names).find? (fun (n, _) => n = other) =
      if other = names then none else nodes.find? fun (n, _) => n = other := by
  rw [List.find?_filter]
  split
  · next hother =>
      rw [List.find?_eq_none]
      intro entry _
      simp [hother]
  · next hother =>
      congr 1
      funext entry
      by_cases hentry : entry.1 = other <;> simp [hentry, hother]

theorem node?_put (hnames : ¬ names <+: t.rootNames) (node : FileNode) (other : List Text) :
    (t.put names node).node? other = if other = names then some node else t.node? other := by
  by_cases hroot : other <+: t.rootNames
  · have hother : other ≠ names := by
      rintro rfl
      exact hnames hroot
    rw [if_neg hother, node?_of_isPrefix hroot, node?_of_isPrefix (by rwa [rootNames_put])]
  · rw [node?_of_not_isPrefix hroot, node?_of_not_isPrefix (by rwa [rootNames_put]), put,
      List.find?_append, find?_filter_names]
    by_cases hother : other = names
    · simp [hother]
    · simp [hother, Ne.symm hother]

/-- What is no directory stands neither above the working directory nor in its place. -/
theorem not_prefix_of_node?_ne (h : t.node? names ≠ some .directory) :
    ¬ names <+: t.rootNames :=
  fun hroot => h (node?_of_isPrefix hroot)

/-- Every node is what its names stand for, and no name has a slash in it. -/
structure Sound (t : FileTree) : Prop where
  node : ∀ names node, (names, node) ∈ t.nodes → t.node? names = some node
  plain : ∀ names node, (names, node) ∈ t.nodes → ∀ name ∈ names, '/' ∉ name

theorem sound_empty (root : Text) : Sound { root } where
  node _ _ hnode := absurd hnode List.not_mem_nil
  plain _ _ hnode := absurd hnode List.not_mem_nil

theorem Sound.put (h : t.Sound) (hnames : ¬ names <+: t.rootNames)
    (hplain : ∀ name ∈ names, '/' ∉ name) (node : FileNode) : (t.put names node).Sound where
  node other old hmem := by
    rw [node?_put hnames]
    rcases List.mem_append.1 hmem with hmem | hmem
    · obtain ⟨hold, hother⟩ := List.mem_filter.1 hmem
      rw [if_neg (of_decide_eq_true hother), h.node _ _ hold]
    · cases List.mem_singleton.1 hmem
      rw [if_pos rfl]
  plain other old hmem := by
    rcases List.mem_append.1 hmem with hmem | hmem
    · exact h.plain _ _ (List.mem_filter.1 hmem).1
    · cases List.mem_singleton.1 hmem
      exact hplain

/-! ## Walks -/

/-- The directories on the way to a node are there. -/
def Reached (t : FileTree) (names : List Text) : Prop :=
  ∀ k < names.length, t.node? (names.take k) = some .directory

theorem Reached.push (h : t.Reached names) (hnode : t.node? names = some .directory)
    (step : Text) : t.Reached (names ++ [step]) := by
  intro k hk
  rw [List.length_append, List.length_singleton] at hk
  rw [List.take_append_of_le_length (Nat.le_of_lt_succ hk)]
  rcases Nat.lt_or_eq_of_le (Nat.le_of_lt_succ hk) with hbefore | hall
  · exact h k hbefore
  · rwa [hall, List.take_length]

theorem Reached.dropLast (h : t.Reached names) : t.Reached names.dropLast := by
  intro k hk
  rw [List.length_dropLast] at hk
  rw [List.dropLast_eq_take, List.take_take, Nat.min_eq_left (Nat.le_of_lt hk)]
  exact h k (by omega)

theorem Reached.node?_dropLast (h : t.Reached names) :
    t.node? names.dropLast = some .directory := by
  by_cases hroot : names = []
  · rw [hroot]
    rfl
  · rw [List.dropLast_eq_take]
    exact h _ (Nat.sub_lt (List.length_pos_iff.2 hroot) Nat.one_pos)

theorem Reached.follow (h : t.Reached names) (hnode : t.node? names = some .directory)
    (step : Text) : t.Reached (follow names step) := by
  rw [FileTree.follow]
  split
  · exact h
  · split
    · exact h.dropLast
    · exact h.push hnode step

theorem walk_nil_eq_ok_iff :
    t.walk start [] = .ok (target, node) ↔ start = target ∧ t.node? target = some node := by
  rw [walk]
  split
  · next hnode =>
      constructor
      · rintro ⟨⟩
        exact ⟨rfl, hnode⟩
      · rintro ⟨rfl, htarget⟩
        rw [hnode] at htarget
        cases htarget
        rfl
  · next hnode =>
      constructor
      · rintro ⟨⟩
      · rintro ⟨rfl, htarget⟩
        rw [hnode] at htarget
        cases htarget

theorem walk_cons (hnode : t.node? start = some .directory) (step : Text) (rest : List Text) :
    t.walk start (step :: rest) = t.walk (follow start step) rest := by
  rw [walk, hnode]

/-- A walk that goes on stands in a directory. -/
theorem node?_of_walk_cons {step : Text} {rest : List Text}
    (h : t.walk start (step :: rest) = .ok (target, node)) :
    t.node? start = some .directory := by
  rw [walk] at h
  split at h
  · cases h
  · cases h
  · assumption

theorem node?_of_walk (h : t.walk start steps = .ok (target, node)) :
    t.node? target = some node := by
  induction steps generalizing start with
  | nil => exact (walk_nil_eq_ok_iff.1 h).2
  | cons step rest ih =>
      rw [walk_cons (node?_of_walk_cons h)] at h
      exact ih h

theorem Reached.walk (hstart : t.Reached start) (h : t.walk start steps = .ok (target, node)) :
    t.Reached target := by
  induction steps generalizing start with
  | nil =>
      obtain ⟨rfl, -⟩ := walk_nil_eq_ok_iff.1 h
      exact hstart
  | cons step rest ih =>
      have hnode := node?_of_walk_cons h
      rw [walk_cons hnode] at h
      exact ih (hstart.follow hnode step) h

theorem walk_append (h : t.walk start front = .ok (target, node)) (back : List Text) :
    t.walk start (front ++ back) = t.walk target back := by
  induction front generalizing start with
  | nil =>
      obtain ⟨rfl, -⟩ := walk_nil_eq_ok_iff.1 h
      rfl
  | cons step rest ih =>
      have hnode := node?_of_walk_cons h
      rw [walk_cons hnode] at h
      rw [List.cons_append, walk_cons hnode, ih h]

/-- A walk passes through directories alone, so it goes on as before when something else is put in
    the place of what is no directory. -/
theorem walk_put (hnames : t.node? names ≠ some .directory)
    (h : t.walk start steps = .ok (target, node)) (new : FileNode) :
    (t.put names new).walk start steps =
      .ok (target, if target = names then new else node) := by
  have hput := node?_put (not_prefix_of_node?_ne hnames) new
  induction steps generalizing start with
  | nil =>
      obtain ⟨rfl, hnode⟩ := walk_nil_eq_ok_iff.1 h
      rw [walk_nil_eq_ok_iff, hput, hnode]
      exact ⟨rfl, by split <;> rfl⟩
  | cons step rest ih =>
      have hnode := node?_of_walk_cons h
      have hother : start ≠ names := by
        rintro rfl
        exact hnames hnode
      have hstays : (t.put names new).node? start = some .directory := by
        rw [hput, if_neg hother, hnode]
      rw [walk_cons hnode] at h
      rw [walk_cons hstays]
      exact ih h

/-- A step that leads to nothing goes down: where it stays or goes up, there is a directory. -/
theorem follow_of_node?_eq_none {step : Text} (hreached : t.Reached start)
    (hnode : t.node? start = some .directory) (h : t.node? (follow start step) = none) :
    follow start step = start ++ [step] := by
  rw [follow] at h ⊢
  split at h
  · rw [hnode] at h
    cases h
  · next hstay =>
      rw [if_neg hstay]
      split at h
      · rw [hreached.node?_dropLast] at h
        cases h
      · next hup => rw [if_neg hup]

/-- Where one more step from a directory leads to nothing, it is a name that is free there. -/
theorem walk_put_last {e : IoError} {last : Text} (hreached : t.Reached start)
    (hnode : t.node? start = some .directory) (h : t.walk start [last] = .error e)
    (new : FileNode) :
    t.node? (start ++ [last]) = none ∧
      (t.put (start ++ [last]) new).walk start [last] = .ok (start ++ [last], new) := by
  have hfree : t.node? (follow start last) = none := by
    rw [walk_cons hnode, walk] at h
    split at h
    · cases h
    · assumption
  have hlast := follow_of_node?_eq_none hreached hnode hfree
  rw [hlast] at hfree
  have hroot : ¬ start ++ [last] <+: t.rootNames := not_prefix_of_node?_ne (by simp [hfree])
  have hput := node?_put hroot new
  have hstays : (t.put (start ++ [last]) new).node? start = some .directory := by
    rw [hput, if_neg (by simp), hnode]
  refine ⟨hfree, ?_⟩
  rw [walk_cons hstays, hlast, walk_nil_eq_ok_iff, hput, if_pos rfl]
  exact ⟨rfl, rfl⟩

/-- A new node below the directory that all steps but the last lead to. -/
theorem walk_put_new {e : IoError} (hnone : t.walk [] steps = .error e)
    (hparent : t.walk [] steps.dropLast = .ok (target, .directory)) (new : FileNode) :
    (t.put (target ++ steps.getLast?.toList) new).walk [] steps =
      .ok (target ++ steps.getLast?.toList, new) := by
  have hsteps : steps ≠ [] := by
    rintro rfl
    cases hnone
  obtain ⟨front, last, rfl⟩ := (List.eq_nil_or_concat' steps).resolve_left hsteps
  rw [List.dropLast_concat] at hparent
  rw [walk_append hparent] at hnone
  have hreached : t.Reached target := Reached.walk (by simp [Reached]) hparent
  obtain ⟨hfree, hlast⟩ := walk_put_last hreached (node?_of_walk hparent) hnone new
  have hfree' : t.node? (target ++ [last]) ≠ some .directory := by simp [hfree]
  have hfront := walk_put hfree' hparent new
  rw [if_neg (by simp)] at hfront
  rw [List.getLast?_concat, Option.toList_some, walk_append hfront, hlast]

/-! ## Paths -/

/-- The content of the file that a path leads to; nothing if there is none. -/
def contentAt (t : FileTree) (path : Text) : Bytes :=
  match t.find path with
  | .ok (_, .file content) => content
  | _ => []

theorem contentAt_of_find (h : t.find path = .ok (names, .file content)) :
    t.contentAt path = content := by
  rw [contentAt, h]

@[simp] theorem steps?_put (t : FileTree) (names : List Text) (node : FileNode) (path : Text) :
    (t.put names node).steps? path = t.steps? path := rfl

theorem find_of_steps? (h : t.steps? path = some steps) : t.find path = t.walk [] steps := by
  rw [find, h]

theorem exists_steps?_of_find (h : t.find path = .ok (names, node)) :
    ∃ steps, t.steps? path = some steps ∧ t.walk [] steps = .ok (names, node) := by
  rw [find] at h
  split at h
  · next steps hsteps => exact ⟨steps, hsteps, h⟩
  · cases h

theorem find_put (hnames : t.node? names ≠ some .directory)
    (h : t.find path = .ok (target, node)) (new : FileNode) :
    (t.put names new).find path = .ok (target, if target = names then new else node) := by
  obtain ⟨steps, hsteps, hwalk⟩ := exists_steps?_of_find h
  rw [find_of_steps? (by rwa [steps?_put]), walk_put hnames hwalk new]

/-- Steps that go down on the way to the working directory meet directories alone. -/
theorem walk_of_isPrefix (hplain : ∀ step ∈ steps, step ≠ ['.'] ∧ step ≠ ['.', '.'])
    (h : start ++ steps.filter (!·.isEmpty) <+: t.rootNames) :
    t.walk start steps = .ok (start ++ steps.filter (!·.isEmpty), .directory) := by
  induction steps generalizing start with
  | nil =>
      rw [List.filter_nil, List.append_nil] at h ⊢
      exact walk_nil_eq_ok_iff.2 ⟨rfl, node?_of_isPrefix h⟩
  | cons step rest ih =>
      obtain ⟨⟨hdot, hdots⟩, hrest⟩ := List.forall_mem_cons.1 hplain
      rw [walk_cons (node?_of_isPrefix ((List.prefix_append ..).trans h)), follow]
      by_cases hempty : step = []
      · subst hempty
        exact ih hrest h
      · have hfilter : start ++ (step :: rest).filter (!·.isEmpty) =
            (start ++ [step]) ++ rest.filter (!·.isEmpty) := by
          rw [List.filter_cons_of_pos (by simpa using hempty), List.append_assoc,
            List.singleton_append]
        rw [if_neg (by simp [hempty, hdot]), if_neg hdots, hfilter]
        exact ih hrest (hfilter ▸ h)

/-- A path without the names that stay or go up. -/
def IsPlain (path : Text) : Prop := ∀ name ∈ namesIn path, name ≠ ['.'] ∧ name ≠ ['.', '.']

/-- The path of the working directory leads there. -/
theorem find_root (hroot : t.root ≠ []) (hplain : IsPlain t.root) :
    t.find t.root = .ok (t.rootNames, .directory) := by
  have hsteps : t.steps? t.root = some (splitOn '/' t.root) := by
    rw [steps?, if_neg hroot, if_pos (.inr (.inl rfl))]
  rw [find_of_steps? hsteps]
  refine walk_of_isPrefix (fun step hstep => ?_) (List.prefix_refl _)
  by_cases hempty : step = []
  · simp [hempty]
  · exact hplain step (List.mem_filter.2 ⟨hstep, by simpa using hempty⟩)

/-- A slash at the end of a path is a step that stays. -/
theorem walk_of_walk_concat_nil (h : t.walk start (steps ++ [[]]) = .ok (target, node)) :
    t.walk start steps = .ok (target, .directory) := by
  induction steps generalizing start with
  | nil =>
      have hnode := node?_of_walk_cons h
      rw [List.nil_append, walk_cons hnode] at h
      rw [walk_nil_eq_ok_iff]
      obtain ⟨rfl, -⟩ := walk_nil_eq_ok_iff.1 h
      exact ⟨rfl, hnode⟩
  | cons step rest ih =>
      have hnode := node?_of_walk_cons h
      rw [List.cons_append, walk_cons hnode] at h
      rw [walk_cons hnode]
      exact ih h

/-- Where the steps of a path begin. -/
theorem steps?_of_ne_nil (hpath : path ≠ []) :
    t.steps? path =
      some ((if t.StartsAtTop path then [] else t.rootNames) ++ splitOn '/' path) := by
  rw [steps?, if_neg hpath]
  split <;> rfl

theorem ne_nil_of_find (h : t.find path = .ok (target, node)) : path ≠ [] := by
  rintro rfl
  cases h

/-- Below an absolute directory, how a path begins says where it starts. -/
theorem startsAtTop_iff (habsolute : t.root.head? = some '/') :
    t.StartsAtTop path ↔ path.head? = some '/' := by
  constructor
  · rintro (hhead | rfl | ⟨rest, rfl⟩)
    · exact hhead
    · exact habsolute
    · simp [List.head?_append, habsolute]
  · exact .inl

theorem head?_join (hpath : path ≠ []) (name : Text) : (join path name).head? = path.head? := by
  obtain ⟨c, rest, rfl⟩ := List.exists_cons_of_ne_nil hpath
  rw [join]
  split <;> rfl

/-- An entry is one more step, in the place of the empty one if the directory ends in a slash. -/
theorem splitOn_join (hpath : path ≠ []) {name : Text} (hname : '/' ∉ name) :
    ∃ front, (splitOn '/' path = front ∨ splitOn '/' path = front ++ [[]]) ∧
      splitOn '/' (join path name) = front ++ [name] := by
  have hsplit (before : Text) {last : Text} (hlast : '/' ∉ last) :
      splitOn '/' (before ++ '/' :: last) = splitOn '/' before ++ [last] := by
    rw [splitOn_eq, List.splitOn_append_cons_self, List.splitOn_eq_singleton hlast, ← splitOn_eq]
  obtain ⟨before, c, rfl⟩ := (List.eq_nil_or_concat' path).resolve_left hpath
  by_cases hslash : c = '/'
  · subst hslash
    have hjoin : join (before ++ ['/']) name = before ++ '/' :: name := by simp [join]
    exact ⟨_, .inr (hsplit before List.not_mem_nil), by rw [hjoin, hsplit before hname]⟩
  · have hjoin : join (before ++ [c]) name = (before ++ [c]) ++ '/' :: name := by
      simp [join, hslash]
    exact ⟨_, .inl rfl, by rw [hjoin, hsplit _ hname]⟩

/-- The path of an entry leads where the name leads from the directory. -/
theorem find_join (habsolute : t.root.head? = some '/')
    (h : t.find path = .ok (target, .directory)) {name : Text} (hname : '/' ∉ name) :
    t.find (join path name) = t.walk target [name] := by
  have hpath := ne_nil_of_find h
  have hjoin : join path name ≠ [] := by
    intro hnil
    have hhead := head?_join hpath name
    rw [hnil, List.head?_nil] at hhead
    exact hpath (List.head?_eq_none_iff.1 hhead.symm)
  have htop : t.StartsAtTop (join path name) ↔ t.StartsAtTop path := by
    rw [startsAtTop_iff habsolute, startsAtTop_iff habsolute, head?_join hpath]
  obtain ⟨front, hfront, hsplit⟩ := splitOn_join hpath hname
  rw [find_of_steps? (steps?_of_ne_nil hpath)] at h
  have hdirectory : t.walk [] ((if t.StartsAtTop path then [] else t.rootNames) ++ front) =
      .ok (target, .directory) := by
    rcases hfront with hfront | hfront
    · rwa [hfront] at h
    · rw [hfront, ← List.append_assoc] at h
      exact walk_of_walk_concat_nil h
  rw [find_of_steps? (steps?_of_ne_nil hjoin), hsplit, ← List.append_assoc]
  simp only [htop]
  exact walk_append hdirectory [name]

theorem follow_of_lt_length {name : Text} (hname : 2 < name.length) (names : List Text) :
    follow names name = names ++ [name] := by
  rw [follow, if_neg, if_neg]
  · rintro rfl
    exact absurd hname (by decide)
  · rintro (rfl | rfl) <;> exact absurd hname (by decide)

/-- A node is found by the path of its directory and its name, if that is no dot or two. -/
theorem Sound.find_join (h : t.Sound) (habsolute : t.root.head? = some '/')
    (hfind : t.find path = .ok (target, .directory)) {name : Text} (hname : 2 < name.length)
    (hmem : (target ++ [name], node) ∈ t.nodes) :
    t.find (join path name) = .ok (target ++ [name], node) := by
  obtain ⟨steps, -, hwalk⟩ := exists_steps?_of_find hfind
  have hslash : '/' ∉ name :=
    h.plain _ _ hmem name (List.mem_append_right _ (List.mem_singleton_self name))
  rw [FileTree.find_join habsolute hfind hslash, walk_cons (node?_of_walk hwalk),
    follow_of_lt_length hname, walk_nil_eq_ok_iff]
  exact ⟨rfl, h.node _ _ hmem⟩

/-! ## Appending -/

theorem openAppend_of_find (h : t.find path = .ok (names, .file content)) :
    t.openAppend path = .ok (t, names) := by
  rw [openAppend, h]
  rfl

theorem find_append (h : t.find path = .ok (names, .file content)) (more : Bytes) :
    (t.append names more).find path = .ok (names, .file (content ++ more)) := by
  obtain ⟨steps, hsteps, hwalk⟩ := exists_steps?_of_find h
  have hnode : t.node? names = some (.file content) := node?_of_walk hwalk
  have hcontent : t.content names = content := by rw [FileTree.content, hnode]
  rw [append, hcontent, find_put (by simp [hnode]) h, if_pos rfl]

/-- What is opened is a file that was there, or a new one in a directory that was there. -/
theorem openAppend_cases (h : t.openAppend path = .ok (next, names)) :
    (∃ content, t.find path = .ok (names, .file content) ∧ next = t) ∨
    ∃ steps target e, t.steps? path = some steps ∧ t.find path = .error e ∧
      t.walk [] steps.dropLast = .ok (target, .directory) ∧
      names = target ++ steps.getLast?.toList ∧ next = t.put names (.file []) := by
  rw [openAppend] at h
  split at h
  · next found content hfind =>
      cases h
      exact .inl ⟨content, hfind, rfl⟩
  · cases h
  · next e hfind =>
      split at h
      · cases h
      · next steps hsteps =>
          cases hparent : t.walk [] (dropEndWhile (·.isEmpty) steps).dropLast with
          | error e => simp [hparent, bind, Except.bind] at h
          | ok parent =>
              obtain ⟨target, node⟩ := parent
              simp only [hparent, bind, Except.bind] at h
              cases node with
              | file content => cases h
              | directory =>
                  dsimp only at h
                  split at h
                  · cases h
                  · next hnamed =>
                      rw [not_not] at hnamed
                      rw [hnamed] at hparent h
                      cases h
                      exact .inr ⟨steps, target, e, hsteps, hfind, hparent, rfl, rfl⟩

/-- What was opened is found, with the content it had. -/
theorem find_of_openAppend (h : t.openAppend path = .ok (next, names)) :
    next.find path = .ok (names, .file (t.contentAt path)) := by
  obtain ⟨content, hfind, rfl⟩ | ⟨steps, target, e, hsteps, hfind, hparent, rfl, rfl⟩ :=
    openAppend_cases h
  · rw [contentAt_of_find hfind, hfind]
  · have hempty : t.contentAt path = [] := by rw [contentAt, hfind]
    rw [find_of_steps? hsteps] at hfind
    rw [find_of_steps? (by rwa [steps?_put]), walk_put_new hfind hparent, hempty]

end InterceptingProxy.FileTree
