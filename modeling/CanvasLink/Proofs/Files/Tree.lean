import CanvasLink.Files.Tree
import CanvasLink.Proofs.Outcomes
import Mathlib.Data.List.Nodup

/-!
# CanvasLink — files written and removed

A path comes to a place step by step, up and down, and what is changed there is put back into the
tree. Whoever takes the same path afterwards comes to the same place and finds the change.

* `Sight` — what can be seen below an entry, which does not depend on the order of names in a
  directory.
* `Place.view` — what a place shows of the whole tree. No step changes it.
* `walk` — a step by the names that lead to a place, given the view alone.
* `foldlM_walk_change` — a change at the end of a walk leaves the walk as it was.
* **`Tree.read_write`**, **`Tree.contains_remove`** — a file that was written is read, and one that
  was removed is gone.
-/

namespace CanvasLink.Files

/-! ## What can be seen -/

/-- What is at the end of some names. -/
inductive Sight where
  | nothing
  | directory
  | file (bytes : ByteArray)

/-- What is at the end of names below an entry. -/
def sight : Option Entry → List String → Sight
  | none, _ => .nothing
  | some (.file bytes), [] => .file bytes
  | some (.file _), _ :: _ => .nothing
  | some (.directory _), [] => .directory
  | some (.directory children), name :: names => sight (children.lookup name) names

/-- Where nothing is seen nothing is. -/
theorem eq_none_of_sight {entry : Option Entry} (h : sight entry [] = .nothing) : entry = none := by
  match entry with
  | none => rfl
  | some (.file _) => cases h
  | some (.directory _) => cases h

/-- Where a file is seen there is this file. -/
theorem eq_file_of_sight {entry : Option Entry} {bytes : ByteArray}
    (h : sight entry [] = .file bytes) : entry = some (.file bytes) := by
  match entry with
  | none => cases h
  | some (.file _) =>
    cases h
    rfl
  | some (.directory _) => cases h

/-- Below what is no directory nothing is seen. -/
theorem sight_eq_nothing {entry : Option Entry} (h : sight entry [] ≠ .directory) (name : String)
    (names : List String) : sight entry (name :: names) = .nothing := by
  match entry with
  | none => rfl
  | some (.file _) => rfl
  | some (.directory _) => exact absurd rfl h

/-- Only a directory has anything below it. -/
theorem sight_of_append {entry : Option Entry} {names below : List String}
    (h : sight entry (names ++ below) = .directory) : sight entry names = .directory := by
  induction names generalizing entry with
  | nil =>
    cases below with
    | nil => exact h
    | cons name below =>
      -- Below anything but a directory there is nothing to see.
      by_contra hne
      rw [List.nil_append, sight_eq_nothing hne] at h
      cases h
  | cons name names ih =>
    match entry with
    | none => cases h
    | some (.file _) => cases h
    | some (.directory children) => exact ih h

/-- Only the child of this name is changed. -/
theorem lookup_putChild (name : String) (entry : Option Entry) (children : Children)
    (other : String) :
    (putChild name entry children).lookup other =
      if other = name then entry else children.lookup other := by
  -- The old child is taken out first, so the new one is the only one of that name.
  have hothers : (children.filter (·.1 ≠ name)).lookup other =
      if other = name then none else children.lookup other := by
    induction children with
    | nil => simp
    | cons child children ih =>
      obtain ⟨key, old⟩ := child
      by_cases hkey : key = name
      · subst hkey
        rw [List.filter_cons_of_neg (by simp), ih]
        by_cases hother : other = key
        · simp [hother]
        · simp [hother, List.lookup_cons, beq_eq_false_iff_ne.2 hother]
      · rw [List.filter_cons_of_pos (by simpa using hkey), List.lookup_cons, List.lookup_cons, ih]
        by_cases hother : other = key
        · simp [hother, hkey]
        · simp [beq_eq_false_iff_ne.2 hother]
  unfold putChild
  cases entry with
  | none => exact hothers
  | some entry =>
    rw [List.lookup_cons, hothers]
    by_cases hother : other = name
    · simp [hother]
    · simp [hother, beq_eq_false_iff_ne.2 hother]

/-! ## Places -/

namespace Place

/-- The names that lead from the root to a place. -/
def names (p : Place) : List String :=
  (p.above.map Prod.fst).reverse

/-- What a place shows of the whole tree. -/
def view (p : Place) : List String → Sight :=
  sight (rootOf p.entry p.above)

/-- What is seen from a place is seen from the root, behind the path to the place. -/
theorem sight_rootOf (entry : Option Entry) (above : List (String × Children))
    (below : List String) :
    sight (rootOf entry above) ((above.map Prod.fst).reverse ++ below) = sight entry below := by
  induction above generalizing entry below with
  | nil => rfl
  | cons up above ih =>
    obtain ⟨name, children⟩ := up
    rw [List.map_cons, List.reverse_cons, List.append_assoc]
    show sight (rootOf (some (.directory (putChild name entry children))) above) _ = _
    rw [ih]
    show sight ((putChild name entry children).lookup name) below = _
    rw [lookup_putChild, if_pos rfl]

/-- A place shows what is there and below. -/
theorem view_names (p : Place) (below : List String) : p.view (p.names ++ below) = sight p.entry below :=
  sight_rootOf p.entry p.above below

theorem view_self (p : Place) : p.view p.names = sight p.entry [] := by
  simpa using p.view_names []

/-- What is seen elsewhere does not depend on what is at the place. -/
theorem sight_rootOf_elsewhere (entry entry' : Option Entry) {above : List (String × Children)}
    {names : List String} (h : ¬ (above.map Prod.fst).reverse <+: names) :
    sight (rootOf entry above) names = sight (rootOf entry' above) names := by
  induction above generalizing entry entry' with
  | nil => exact absurd (List.nil_prefix (l := names)) h
  | cons up above ih =>
    obtain ⟨name, children⟩ := up
    rw [List.map_cons, List.reverse_cons] at h
    show sight (rootOf (some (.directory (putChild name entry children))) above) names =
      sight (rootOf (some (.directory (putChild name entry' children))) above) names
    by_cases habove : (above.map Prod.fst).reverse <+: names
    · -- The names lead into the directory above, and there to another child.
      obtain ⟨below, rfl⟩ := habove
      rw [sight_rootOf, sight_rootOf]
      cases below with
      | nil => rfl
      | cons other below =>
        have hother : other ≠ name := by
          rintro rfl
          exact h ⟨below, by simp⟩
        show sight ((putChild name entry children).lookup other) below =
          sight ((putChild name entry' children).lookup other) below
        rw [lookup_putChild, lookup_putChild, if_neg hother, if_neg hother]
    · exact ih _ _ habove

/-- What can be seen depends on an entry only as far as that can be seen. -/
theorem view_congr (entry entry' : Option Entry) (h : sight entry = sight entry')
    (above : List (String × Children)) : view ⟨entry, above⟩ = view ⟨entry', above⟩ := by
  funext names
  by_cases habove : (above.map Prod.fst).reverse <+: names
  · obtain ⟨below, rfl⟩ := habove
    show sight (rootOf entry above) _ = sight (rootOf entry' above) _
    rw [sight_rootOf, sight_rootOf, h]
  · exact sight_rootOf_elsewhere entry entry' habove

end Place

/-! ## Walks -/

/-- A step from where some names lead, by what can be seen. -/
def walk (view : List String → Sight) (names : List String) (name : String) :
    Except FileError (List String) :=
  match view names with
  | .nothing => .error .notFound
  | .file _ => .error .notDirectory
  | .directory =>
    if name = "" || name = "." then .ok names
    else if name = ".." then .ok names.dropLast
    else if Place.nameLimit < name.utf8ByteSize then .error .nameTooLong
    else .ok (names ++ [name])

namespace Place

/-- One step up is one name less. -/
theorem names_up (p : Place) : p.up.names = p.names.dropLast := by
  obtain ⟨entry, above⟩ := p
  cases above with
  | nil => rfl
  | cons up above => simp [Place.up, names]

theorem view_up (p : Place) : p.up.view = p.view := by
  obtain ⟨entry, above⟩ := p
  cases above <;> rfl

/-- A step down changes nothing that can be seen. -/
theorem view_down (children : Children) (name : String) (above : List (String × Children)) :
    view ⟨children.lookup name, (name, children) :: above⟩ =
      view ⟨some (.directory children), above⟩ := by
  refine view_congr (some (.directory (putChild name (children.lookup name) children))) _ ?_ above
  funext names
  cases names with
  | nil => rfl
  | cons other names =>
    show sight ((putChild name (children.lookup name) children).lookup other) names =
      sight (children.lookup other) names
    rw [lookup_putChild]
    split
    · next heq => rw [heq]
    · rfl

/-- **A step is a step by names**, and shows the same tree. -/
theorem step_walk (p : Place) (name : String) :
    (p.step name).map names = walk p.view p.names name ∧
      ∀ q, p.step name = .ok q → q.view = p.view := by
  have hself := p.view_self
  obtain ⟨entry, above⟩ := p
  match entry with
  | none =>
    rw [walk, hself]
    exact ⟨rfl, nofun⟩
  | some (.file bytes) =>
    rw [walk, hself]
    exact ⟨rfl, nofun⟩
  | some (.directory children) =>
    rw [walk, hself]
    show (step _ _).map names = (if _ then _ else _) ∧ _
    simp only [step]
    -- Two names stay where they are, one leads up, and another one leads down unless it is too long.
    by_cases hstay : (name = "" || name = ".") = true
    · simp only [if_pos hstay]
      refine ⟨rfl, fun q hq => ?_⟩
      cases hq
      rfl
    · simp only [if_neg hstay]
      by_cases hup : name = ".."
      · simp only [if_pos hup]
        refine ⟨congrArg Except.ok (names_up _), fun q hq => ?_⟩
        cases hq
        exact view_up _
      · simp only [if_neg hup]
        by_cases hlong : nameLimit < name.utf8ByteSize
        · simp only [if_pos hlong]
          exact ⟨rfl, nofun⟩
        · simp only [if_neg hlong]
          refine ⟨by simp [Except.map, names], fun q hq => ?_⟩
          cases hq
          exact view_down children name above

end Place

/-- A walk in the tree goes where the names say, and changes nothing that can be seen. -/
theorem foldlM_step (p : Place) (route : List String) :
    (route.foldlM Place.step p).map Place.names = route.foldlM (walk p.view) p.names ∧
      ∀ q, route.foldlM Place.step p = .ok q → q.view = p.view := by
  induction route generalizing p with
  | nil =>
    refine ⟨rfl, fun q hq => ?_⟩
    cases hq
    rfl
  | cons name route ih =>
    -- A step moves within the same tree, so the walk sees the same view throughout.
    obtain ⟨hnames, hview⟩ := p.step_walk name
    rw [List.foldlM_cons, List.foldlM_cons, ← hnames]
    cases hstep : p.step name with
    | error e => exact ⟨rfl, nofun⟩
    | ok next =>
      have hsame := hview next hstep
      obtain ⟨hrest, hlast⟩ := ih next
      rw [hsame] at hrest
      exact ⟨hrest, fun q hq => (hlast q hq).trans hsame⟩

/-- A walk passes through directories only, so that a change elsewhere does not lead it astray. -/
theorem foldlM_walk_change {view view' : List String → Sight}
    (hdirectory : ∀ names, view names = .directory → view' names = .directory)
    {route names target : List String} (h : route.foldlM (walk view) names = .ok target) :
    route.foldlM (walk view') names = .ok target := by
  induction route generalizing names with
  | nil => exact h
  | cons name route ih =>
    rw [List.foldlM_cons] at h ⊢
    obtain ⟨next, hnext, hrest⟩ := bind_eq_ok.1 h
    -- A walk goes on only from a directory, and directories have stayed.
    have hhere : view names = .directory := by
      cases hview : view names with
      | directory => rfl
      | _ => simp [walk, hview] at hnext
    have hsame : walk view' names name = walk view names name := by
      simp only [walk, hhere, hdirectory names hhere]
    rw [hsame, hnext]
    exact ih hrest

/-- What is at a place may change if it is not a directory. -/
theorem Place.view_change {p : Place} (h : sight p.entry [] ≠ .directory) (entry : Option Entry)
    {names : List String} (hnames : p.view names = .directory) :
    view { p with entry := entry } names = .directory := by
  have hapart : ¬ (p.above.map Prod.fst).reverse <+: names := by
    rintro ⟨below, rfl⟩
    have hbelow : sight p.entry ([] ++ below) = .directory := (p.view_names below).symm.trans hnames
    exact h (sight_of_append hbelow)
  exact (sight_rootOf_elsewhere p.entry entry hapart).symm.trans hnames

/-! ## Trees -/

namespace Tree

/-- The names that a path goes through from the root. -/
def route (t : Tree) (path : String) : List String :=
  (if path.startsWith "/" then [] else t.here) ++ path.splitOn "/"

/-- A path leads to a place exactly if it may be one and can be walked. -/
theorem resolve_eq_ok_iff {t : Tree} {path : String} {p : Place} :
    t.resolve path = .ok p ↔
      checkPath path = .ok () ∧ path ≠ "" ∧ (t.route path).foldlM Place.step t.top = .ok p := by
  -- The origin is the beginning of the route, walked from the top.
  have horigin : (t.origin path >>= (path.splitOn "/").foldlM Place.step) =
      (t.route path).foldlM Place.step t.top := by
    unfold route origin
    split
    · rfl
    · exact (List.foldlM_append ..).symm
  rw [resolve, bind_eq_ok]
  constructor
  · rintro ⟨⟨⟩, hcheck, h⟩
    split at h
    · cases h
    · next hne => exact ⟨hcheck, hne, horigin ▸ h⟩
  · rintro ⟨hcheck, hne, h⟩
    refine ⟨(), hcheck, ?_⟩
    rw [if_neg hne]
    exact horigin.trans h

/-- What is above a place is a directory. -/
theorem exists_rootOf (entry : Option Entry) {above : List (String × Children)} (h : above ≠ []) :
    ∃ children, Place.rootOf entry above = some (.directory children) := by
  induction above generalizing entry with
  | nil => exact absurd rfl h
  | cons up above ih =>
    cases above with
    | nil => exact ⟨_, rfl⟩
    | cons next above => exact ih _ (List.cons_ne_nil _ _)

/-- **What was changed at the end of a path is found there.** -/
theorem resolve_change {t : Tree} {path : String} {p : Place} (h : t.resolve path = .ok p)
    (hentry : sight p.entry [] ≠ .directory) (entry : Option Entry) :
    ∃ q, (t.withPlace { p with entry := entry }).resolve path = .ok q ∧
      sight q.entry [] = sight entry [] := by
  obtain ⟨hcheck, hne, hsteps⟩ := resolve_eq_ok_iff.1 h
  have hview : p.view = t.top.view := (foldlM_step t.top (t.route path)).2 p hsteps
  -- The root is a directory, so the place is below it, and the changed tree has a root again.
  have habove : p.above ≠ [] := by
    intro hnil
    have hroot : p.view [] = .directory := by rw [hview]; rfl
    have hnames : p.names = [] := by rw [Place.names, hnil]; rfl
    exact hentry (p.view_self.symm.trans (hnames ▸ hroot))
  obtain ⟨children, hroot⟩ := exists_rootOf entry habove
  have hchanged : t.withPlace { p with entry := entry } = { t with root := children } := by
    simp only [withPlace, hroot]
  have hview' : Place.view { p with entry := entry } =
      (t.withPlace { p with entry := entry }).top.view := by
    rw [hchanged]
    show sight (Place.rootOf entry p.above) = _
    rw [hroot]
    rfl
  -- By names the path leads where it led before.
  have hwalk : (t.route path).foldlM (walk p.view) [] = .ok p.names := by
    rw [hview]
    refine Eq.trans (foldlM_step t.top (t.route path)).1.symm ?_
    rw [hsteps]
    rfl
  have hwalk' : (t.route path).foldlM (walk (t.withPlace { p with entry := entry }).top.view) [] =
      .ok p.names := by
    rw [← hview']
    exact foldlM_walk_change (fun names => Place.view_change hentry entry) hwalk
  have hroute : (t.withPlace { p with entry := entry }).route path = t.route path := by
    rw [hchanged]
    rfl
  obtain ⟨hmap, hlast⟩ := foldlM_step (t.withPlace { p with entry := entry }).top (t.route path)
  obtain ⟨q, hq, hnames⟩ := map_eq_ok.1 (hmap.trans hwalk')
  refine ⟨q, resolve_eq_ok_iff.2 ⟨hcheck, hne, by rw [hroute, hq]⟩, ?_⟩
  rw [← q.view_self, hlast q hq, ← hview', hnames]
  exact Place.view_self { p with entry := entry }

theorem decodeText_toUTF8 (text : String) : decodeText text.toUTF8 = .ok text := by
  simp [decodeText, String.fromUTF8?, String.fromUTF8, text.isValidUTF8]

/-- A file is read exactly if its path leads to one that holds a text. -/
theorem read_eq_ok_iff {t : Tree} {path text : String} :
    t.read path = .ok text ↔ ∃ p bytes, t.resolve path = .ok p ∧ p.entry = some (.file bytes) ∧
      decodeText bytes = .ok text := by
  rw [read, bind_eq_ok]
  refine exists_congr fun p => ?_
  match hentry : p.entry with
  | none => simp
  | some (.directory _) => simp
  | some (.file bytes) => simp

/-- A file is written exactly if its path leads to a place where no directory is. -/
theorem write_eq_ok_iff {t t' : Tree} {path text : String} :
    t.write path text = .ok t' ↔ ∃ p, t.resolve path = .ok p ∧ sight p.entry [] ≠ .directory ∧
      t.withPlace { p with entry := some (.file text.toUTF8) } = t' := by
  rw [write, writeBytes, bind_eq_ok]
  refine exists_congr fun p => and_congr_right fun _ => ?_
  match hentry : p.entry with
  | none => simp [sight]
  | some (.directory _) => simp [sight]
  | some (.file bytes) => simp [sight]

/-- A file is removed exactly if its path leads to one. -/
theorem remove_eq_ok_iff {t t' : Tree} {path : String} :
    t.remove path = .ok t' ↔ ∃ p bytes, t.resolve path = .ok p ∧ p.entry = some (.file bytes) ∧
      t.withPlace { p with entry := none } = t' := by
  rw [remove, bind_eq_ok]
  refine exists_congr fun p => ?_
  match hentry : p.entry with
  | none => simp
  | some (.directory _) => simp
  | some (.file bytes) => simp

/-- **A text that was written is read.** -/
theorem read_write {t t' : Tree} {path text : String} (h : t.write path text = .ok t') :
    t'.read path = .ok text := by
  obtain ⟨p, hp, hentry, rfl⟩ := write_eq_ok_iff.1 h
  obtain ⟨q, hq, hsight⟩ := resolve_change hp hentry (some (.file text.toUTF8))
  exact read_eq_ok_iff.2 ⟨q, _, hq, eq_file_of_sight hsight, decodeText_toUTF8 text⟩

/-- **A file that was removed is gone.** -/
theorem contains_remove {t t' : Tree} {path : String} (h : t.remove path = .ok t') :
    t'.contains path = false := by
  obtain ⟨p, bytes, hp, hfile, rfl⟩ := remove_eq_ok_iff.1 h
  have hentry : sight p.entry [] ≠ .directory := by
    rw [hfile]
    nofun
  obtain ⟨q, hq, hsight⟩ := resolve_change hp hentry none
  rw [contains, hq]
  exact congrArg Option.isSome (eq_none_of_sight hsight)

/-- A file that can be read can be removed. -/
theorem exists_remove {t : Tree} {path text : String} (h : t.read path = .ok text) :
    ∃ t', t.remove path = .ok t' := by
  obtain ⟨p, bytes, hp, hfile, -⟩ := read_eq_ok_iff.1 h
  exact ⟨_, remove_eq_ok_iff.2 ⟨p, bytes, hp, hfile, rfl⟩⟩

end Tree

end CanvasLink.Files
