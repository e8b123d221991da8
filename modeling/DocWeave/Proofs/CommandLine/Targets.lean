import DocWeave.CommandLine.Targets
import DocWeave.Proofs.Files.Creating
import Mathlib.Data.List.Pairwise
import Mathlib.Data.List.TakeWhile

/-!
# Targets and sources

The target of a source is named for its stem. If one source were the target of another one, both would
have the same stem and so the same target, which is a conflict.

- `goal_of_name?`: a path with a name leads to an entry with this name.
- `stem_append`: the stem of a name with an extension.
- `targets_of_ok`: without a conflict, no two sources have targets with one name.
- `goal_target_ne_goal_target`, `goal_source_ne_goal_target`: no target is the target of another source,
  or another source.
-/

namespace DocWeave

namespace Path

variable {p : Path} {cwd : Location} {name : String}

/-! ## The name of a path -/

/-- The anchor has no pieces, or a single dot. -/
theorem pieces_splitAnchor (s : List Char) :
    ∃ front, pieces s = front ++ pieces (splitAnchor s).2 := by
  rcases splitAnchor_cases s with ⟨rest, rfl, heq⟩ | ⟨rfl, heq⟩ | ⟨rest, rfl, heq⟩ | ⟨-, heq⟩
  · rw [heq]
    exact ⟨[], pieces_append_cons [] rest⟩
  · rw [heq]
    exact ⟨[['.']], rfl⟩
  · rw [heq]
    refine ⟨[['.']], ?_⟩
    have hslash : pieces ('/' :: rest) = pieces rest := pieces_append_cons [] rest
    rw [hslash]
    exact pieces_append_cons ['.'] rest
  · rw [heq]
    exact ⟨[], rfl⟩

/-- The last piece that is a name, the pieces before it from there backwards, and what stands behind
it. -/
theorem split_of_piecesBackwards {piece : List Char} {more : List (List Char)}
    (h : p.piecesBackwards = piece :: more) : isName piece = true ∧
      ∃ after, Text.split '/' (splitAnchor p.text.toList).2 = more.reverse ++ piece :: after ∧
        ∀ x ∈ after, isName x = false := by
  unfold piecesBackwards at h
  generalize Text.split '/' (splitAnchor p.text.toList).2 = all at h ⊢
  constructor
  · have hhead := List.head?_dropWhile_not (!isName ·) all.reverse
    rw [h] at hhead
    simpa using hhead
  · refine ⟨(all.reverse.takeWhile (!isName ·)).reverse, ?_, fun x hx => ?_⟩
    · rw [← List.reverse_inj, List.reverse_append, List.reverse_cons, List.reverse_reverse,
        List.reverse_reverse, List.append_assoc, List.singleton_append, ← h]
      exact List.takeWhile_append_dropWhile.symm
    · have hx := List.mem_takeWhile_imp (List.mem_reverse.mp hx)
      simpa using hx

/-- A piece between slashes that names something, but not the parent directory, is a proper name. -/
theorem properName_ofList {piece s : List Char} (hmem : piece ∈ Text.split '/' s)
    (hname : isName piece = true) (hparent : piece ≠ ['.', '.']) : ProperName (String.ofList piece) := by
  have hproper : piece ≠ [] ∧ piece ≠ ['.'] := by
    simpa [isName] using hname
  refine ⟨?_, ?_, fun heq => ?_, fun heq => ?_⟩
  · rw [String.toList_ofList]
    exact hproper.1
  · rw [String.toList_ofList]
    exact Text.not_mem_of_mem_split hmem
  · have hlist := congrArg String.toList heq
    rw [String.toList_ofList] at hlist
    exact hproper.2 hlist
  · have hlist := congrArg String.toList heq
    rw [String.toList_ofList] at hlist
    exact hparent hlist

/-- The last name of a path stands in front of single dots. -/
theorem stepsToCreate_of_name? (h : p.name? = some name) : ProperName name ∧
    ∃ before after, p.stepsToCreate = before ++ name :: after ∧ ∀ step ∈ after, step = "." := by
  unfold name? at h
  split at h
  · cases h
  · rename_i piece more hpieces
    split at h
    · cases h
    · rename_i hparent
      cases h
      obtain ⟨hname, after, hsplit, hafter⟩ := split_of_piecesBackwards hpieces
      have hmem : piece ∈ Text.split '/' (splitAnchor p.text.toList).2 := by
        rw [hsplit]
        exact List.mem_append_right _ List.mem_cons_self
      have hproper := properName_ofList hmem hname hparent
      have hne : piece ≠ [] := fun hnil => hproper.nonempty (by rw [hnil]; rfl)
      obtain ⟨front, hfront⟩ := pieces_splitAnchor p.text.toList
      have hrest : pieces (splitAnchor p.text.toList).2 =
          more.reverse.filter (· ≠ []) ++ piece :: after.filter (· ≠ []) := by
        unfold pieces
        rw [hsplit, List.filter_append, List.filter_cons_of_pos (by simpa using hne)]
      refine ⟨hproper, (front ++ more.reverse.filter (· ≠ [])).map String.ofList,
        (after.filter (· ≠ [])).map String.ofList, ?_, fun step => eq_dot_of_not_isName hafter⟩
      rw [stepsToCreate_eq, hfront, hrest, ← List.append_assoc, List.map_append, List.map_cons]

/-- A path with a name leads to an entry with this name. -/
theorem goal_of_name? (h : p.name? = some name) : ∃ l, p.goal cwd = l ++ [name] := by
  obtain ⟨hname, before, after, hsteps, hafter⟩ := stepsToCreate_of_name? h
  refine ⟨before.foldl Store.follow (p.start cwd), ?_⟩
  rw [goal, hsteps, List.foldl_append, List.foldl_cons, Store.foldl_follow_dots _ hafter, hname.follow]

/-! ## Stems -/

/-- The stem of a name with an extension. -/
theorem stem_append {name extension : List Char} (hname : name ≠ []) (hextension : '.' ∉ extension) :
    stem (name ++ '.' :: extension) = name := by
  -- Backwards, the extension comes first, up to the last dot.
  have hdrop : (name ++ '.' :: extension).reverse.dropWhile (· ≠ '.') = '.' :: name.reverse := by
    rw [List.reverse_append, List.reverse_cons, List.append_assoc,
      List.dropWhile_append_of_pos fun c hc => ?_]
    · rfl
    · have hne : c ≠ '.' := by
        rintro rfl
        exact hextension (List.mem_reverse.mp hc)
      simpa using hne
  unfold stem
  rw [hdrop]
  dsimp only
  rw [if_neg (fun hnil => hname (List.reverse_eq_nil_iff.mp hnil)), List.reverse_reverse]

theorem stem_ne_nil {name : List Char} (h : name ≠ []) : stem name ≠ [] := by
  unfold stem
  split
  · split
    · exact h
    · rename_i hbefore
      exact fun hnil => hbefore (List.reverse_eq_nil_iff.mp hnil)
  · exact h

theorem stem_subset (name : List Char) : stem name ⊆ name := by
  unfold stem
  split
  · rename_i dot before hdrop
    split
    · exact List.Subset.refl _
    · intro c hc
      have hmem : c ∈ name.reverse.dropWhile (· ≠ '.') := by
        rw [hdrop]
        exact List.mem_cons_of_mem _ (List.mem_reverse.mp hc)
      exact List.mem_reverse.mp ((List.dropWhile_sublist _).subset hmem)
  · exact List.Subset.refl _

end Path

namespace CommandLine

variable {dir p q : Path} {format : Format} {cwd : Location} {sources targets earlier : List Path}

/-! ## The names of targets -/

/-- The name of the target of a source. -/
def targetName (format : Format) (source : Path) : String :=
  source.stem?.getD source.text ++ "." ++ format.name

theorem targetOf_eq (dir : Path) (format : Format) (source : Path) :
    targetOf dir format source = dir.child (targetName format source) :=
  rfl

theorem dot_not_mem_name (format : Format) : '.' ∉ format.name.toList := by
  cases format <;> decide

/-- The name of a target is the stem of the source and an extension. -/
theorem toList_targetName {name : String} (h : p.name? = some name) :
    (targetName format p).toList = Path.stem name.toList ++ '.' :: format.name.toList := by
  unfold targetName Path.stem?
  rw [h]
  simp

theorem properName_targetName (h : p.name?.isSome) : ProperName (targetName format p) := by
  obtain ⟨name, hname⟩ := Option.isSome_iff_exists.mp h
  obtain ⟨hproper, -⟩ := Path.stepsToCreate_of_name? hname
  have hlist : (targetName format p).toList = _ := toList_targetName hname
  have hstem := Path.stem_ne_nil hproper.nonempty
  -- So the name is neither of the two that lead elsewhere.
  have hdots (text : String) (hdot : ∀ c ∈ text.toList, c = '.') : targetName format p ≠ text := by
    rintro rfl
    -- The extension has letters.
    have hextension : ∃ c ∈ format.name.toList, c ≠ '.' := by
      cases format <;> exact ⟨_, List.mem_cons_self, by decide⟩
    obtain ⟨c, hc, hne⟩ := hextension
    refine hne (hdot c ?_)
    rw [hlist]
    exact List.mem_append_right _ (List.mem_cons_of_mem _ hc)
  refine ⟨?_, ?_, hdots "." (by simp), hdots ".." (by simp)⟩
  · rw [hlist]
    simp
  · rw [hlist, List.mem_append, List.mem_cons, not_or, not_or]
    refine ⟨fun hmem => hproper.unslashed (Path.stem_subset _ hmem), by decide, ?_⟩
    cases format <;> decide

/-- The target stands under this name in the output directory. -/
theorem goal_targetOf (h : p.name?.isSome) :
    (targetOf dir format p).goal cwd = dir.goal cwd ++ [targetName format p] :=
  Path.goal_child (properName_targetName h)

/-- A path to something named like a target has the stem of the source. -/
theorem targetName_of_name? (hq : q.name?.isSome) (h : p.name? = some (targetName format q)) :
    targetName format p = targetName format q := by
  obtain ⟨name, hname⟩ := Option.isSome_iff_exists.mp hq
  obtain ⟨hproper, -⟩ := Path.stepsToCreate_of_name? hname
  have hstem := Path.stem_ne_nil hproper.nonempty
  rw [← String.toList_inj, toList_targetName h, toList_targetName hname,
    Path.stem_append hstem (dot_not_mem_name format)]

/-! ## Targets without conflicts -/

/-- If no target is taken, each source has its own, which differs from all of those before. -/
theorem targetsAfter_ok : ∀ {earlier sources targets : List Path},
    targetsAfter dir format earlier sources = .ok targets →
      targets = sources.map (targetOf dir format) ∧
      (sources.Pairwise fun p q => (targetOf dir format p).key ≠ (targetOf dir format q).key) ∧
      ∀ p ∈ earlier, ∀ q ∈ sources, (targetOf dir format p).key ≠ (targetOf dir format q).key := by
  intro earlier sources
  induction sources generalizing earlier with
  | nil =>
    intro targets h
    cases h
    exact ⟨rfl, List.Pairwise.nil, nofun⟩
  | cons source rest ih =>
    intro targets h
    rw [targetsAfter] at h
    split at h
    · cases h
    · rename_i hfind
      cases hrest : targetsAfter dir format (earlier ++ [source]) rest with
      | error e =>
        rw [hrest] at h
        cases h
      | ok more =>
        rw [hrest] at h
        cases h
        obtain ⟨rfl, hpairwise, hearlier⟩ := ih hrest
        -- The target of the first source is none of the earlier ones, and it is an earlier one for the
        -- others.
        have hnew : ∀ p ∈ earlier, (targetOf dir format p).key ≠ (targetOf dir format source).key := by
          simpa using hfind
        refine ⟨rfl, List.pairwise_cons.mpr ⟨fun q hq => ?_, hpairwise⟩, fun p hp => ?_⟩
        · exact hearlier source (List.mem_append_right _ (List.mem_singleton_self _)) q hq
        · refine List.forall_mem_cons.mpr ⟨hnew p hp, fun q hq => ?_⟩
          exact hearlier p (List.mem_append_left _ hp) q hq

/-- Without a conflict, the sources are distinct, and so are the names of their targets. -/
theorem targets_of_ok (h : targetsOf dir format sources = .ok targets) :
    targets = sources.map (targetOf dir format) ∧ sources.Nodup ∧
      ∀ p ∈ sources, ∀ q ∈ sources, p ≠ q → targetName format p ≠ targetName format q := by
  obtain ⟨htargets, hpairwise, -⟩ := targetsAfter_ok h
  have hnames : sources.Pairwise fun p q => targetName format p ≠ targetName format q := by
    refine hpairwise.imp fun hkey heq => hkey ?_
    rw [targetOf_eq, targetOf_eq, heq]
  have : Std.Symm fun p q => targetName format p ≠ targetName format q := ⟨fun _ _ => Ne.symm⟩
  refine ⟨htargets, hnames.imp fun hname heq => hname (congrArg _ heq), ?_⟩
  exact fun p hp q hq hne => hnames.forall hp hq hne

section

variable (h : targetsOf dir format sources = .ok targets) (hnames : ∀ p ∈ sources, p.name?.isSome)
  (hp : p ∈ sources) (hq : q ∈ sources) (hne : p ≠ q)
include h hnames hp hq hne

/-- No target is the target of another source. -/
theorem goal_target_ne_goal_target :
    (targetOf dir format p).goal cwd ≠ (targetOf dir format q).goal cwd := by
  rw [goal_targetOf (hnames p hp), goal_targetOf (hnames q hq)]
  intro heq
  obtain ⟨-, hlast⟩ := List.append_inj' heq rfl
  exact (targets_of_ok h).2.2 p hp q hq hne (List.cons.inj hlast).1

/-- No target is another source: otherwise both sources would have the same target. -/
theorem goal_source_ne_goal_target : p.goal cwd ≠ (targetOf dir format q).goal cwd := by
  intro heq
  obtain ⟨name, hname⟩ := Option.isSome_iff_exists.mp (hnames p hp)
  obtain ⟨l, hl⟩ : ∃ l, p.goal cwd = l ++ [name] := Path.goal_of_name? hname
  rw [hl, goal_targetOf (hnames q hq)] at heq
  obtain ⟨-, hlast⟩ := List.append_inj' heq rfl
  have htarget : p.name? = some (targetName format q) := by
    rw [hname, (List.cons.inj hlast).1]
  exact (targets_of_ok h).2.2 p hp q hq hne (targetName_of_name? (hnames q hq) htarget)

end

end CommandLine

end DocWeave
