import DocWeave.Proofs.Files.Creating
import DocWeave.Sphinx.Build
import Mathlib.Data.List.Perm.Subperm
import Mathlib.Data.List.Nodup

/-!
# Names of working directories

Where several documents are built at a time, each build takes some name for its working directory that
is not in use at that time. Which one it is does not matter.

- `workdirName_injective`, `properName_workdirName`: what the names are like.
- `Naming`: a way to find a free name; `Naming.fresh`: taking the first one.
- `createWith`, `Builder.buildWith`: creating a working directory and building, with any naming.
- `createOn_eq`, `Builder.build_eq`: what the builder does is the case of taking the first free name.
-/

namespace DocWeave.Sphinx

open Page

/-! ## Names -/

/-- The digits of a name, with the zeros in front of them. -/
def workdirDigits (n : Nat) : List Char :=
  List.replicate (6 - (Nat.toDigits 10 n).length) '0' ++ Nat.toDigits 10 n

theorem toList_workdirName (n : Nat) :
    (workdirName n).toList = "autodoc-".toList ++ workdirDigits n := by
  unfold workdirName workdirDigits
  rw [String.toList_ofList, List.append_assoc]

/-- The number can be read from the name. -/
theorem workdirName_injective : Function.Injective workdirName := by
  intro n m h
  -- The zeros in front of the digits do not change the number.
  have hnumber (k : Nat) : Nat.ofDigitChars 10 (workdirDigits k) 0 = k := by
    unfold workdirDigits
    rw [Nat.ofDigitChars_append, Nat.ofDigitChars_replicate_zero, Nat.mul_zero,
      Nat.ofDigitChars_ten_toDigits]
  have hdigits : workdirDigits n = workdirDigits m := by
    have hlist := congrArg String.toList h
    rwa [toList_workdirName, toList_workdirName, List.append_cancel_left_eq] at hlist
  rw [← hnumber n, hdigits, hnumber m]

/-- There is neither a slash nor a dot in a name. -/
theorem not_mem_workdirName {c : Char} (h : c = '/' ∨ c = '.') (n : Nat) :
    c ∉ (workdirName n).toList := by
  intro hmem
  rw [toList_workdirName, List.mem_append] at hmem
  rcases hmem with hmem | hmem
  · rcases h with rfl | rfl <;> exact absurd hmem (by decide)
  · rcases List.mem_append.mp hmem with hzero | hdigit
    · rw [List.eq_of_mem_replicate hzero] at h
      exact absurd h (by decide)
    · have hdigit := Nat.isDigit_of_mem_toDigits (by decide) (by decide) hdigit
      rcases h with rfl | rfl <;> exact absurd hdigit (by decide)

theorem properName_workdirName (n : Nat) : ProperName (workdirName n) where
  nonempty := by
    rw [toList_workdirName]
    nofun
  unslashed := not_mem_workdirName (Or.inl rfl) n
  notHere := fun h => not_mem_workdirName (c := '.') (Or.inr rfl) n (by rw [h]; decide)
  notParent := fun h => not_mem_workdirName (c := '.') (Or.inr rfl) n (by rw [h]; decide)

/-! ## Ways to find a free name -/

/-- A way to find a name for a working directory that a directory does not hold. -/
structure Naming where
  /-- The name in a directory of a store. -/
  name : Store → Location → String
  /-- It is a name of a working directory. -/
  usual : ∀ s l, ∃ n, name s l = workdirName n
  /-- It is not in use. -/
  free : ∀ (s : Store) (l : Location), s.find? (l ++ [name s l]) = none

/-- A name that is not listed is not in use. -/
theorem find?_of_not_mem_names {s : Store} {l : Location} {name : String} (h : name ∉ s.names l) :
    s.find? (l ++ [name]) = none := by
  by_contra hfound
  obtain ⟨e, he⟩ := Option.ne_none_iff_exists'.mp hfound
  have hmem : (l ++ [name], e) ∈ s.entries := Store.mem_entries_of_find? (by simp) he
  refine h (List.mem_filterMap.mpr ⟨_, hmem, ?_⟩)
  simp

/-- There are more candidates than entries in a directory, so that one of them is free. -/
theorem freshName_cases (s : Store) (l : Location) :
    ∃ n, freshName s l = workdirName n ∧ workdirName n ∉ s.names l := by
  have hfree : ∃ name ∈ (List.range ((s.names l).length + 1)).map workdirName,
      (s.names l).contains name = false := by
    by_contra hnone
    have hsubset : (List.range ((s.names l).length + 1)).map workdirName ⊆ s.names l := by
      intro name hname
      by_contra hmem
      exact hnone ⟨name, hname, by simpa using hmem⟩
    have hnodup : ((List.range ((s.names l).length + 1)).map workdirName).Nodup :=
      List.nodup_range.map workdirName_injective
    have hlength := (List.subperm_of_subset hnodup hsubset).length_le
    rw [List.length_map, List.length_range] at hlength
    omega
  unfold freshName
  dsimp only
  obtain ⟨name, hname, hnew⟩ := hfree
  cases hfind : ((List.range ((s.names l).length + 1)).map workdirName).find?
      (!(s.names l).contains ·) with
  | none =>
    have hused := List.find?_eq_none.mp hfind name hname
    rw [hnew] at hused
    exact absurd rfl hused
  | some first =>
    obtain ⟨n, -, rfl⟩ := List.mem_map.mp (List.mem_of_find?_eq_some hfind)
    refine ⟨n, rfl, ?_⟩
    have hnot := List.find?_some hfind
    simpa using hnot

/-- Taking the first name that is not in use. -/
def Naming.fresh : Naming where
  name := freshName
  usual s l := (freshName_cases s l).imp fun _ h => h.1
  free s l := by
    obtain ⟨n, hname, hfree⟩ := freshName_cases s l
    rw [hname]
    exact find?_of_not_mem_names hfree

/-! ## Building with any naming -/

/-- Creates the directory in which working directories are to be created, if one is given. -/
def openRoot (root? : Option Path) : Action Error Unit :=
  match root? with
  | some root => Files.mapError (.system root) (Files.createAll root)
  | none => pure ()

/-- What happens again if the directory is created once more. -/
theorem openRoot_again {root? : Option Path} {s s' : Store} (h : openRoot root? s = .ok () s') :
    openRoot root? s' = .ok () s' := by
  cases root? with
  | none => rfl
  | some root =>
    unfold openRoot Files.mapError at h ⊢
    dsimp only at h ⊢
    cases hcreate : Files.createAll root s with
    | ok _ s₁ =>
      rw [hcreate] at h
      cases h
      rw [Files.createAll_again hcreate]
    | error e s₁ =>
      rw [hcreate] at h
      cases h

/-- Creates a working directory in a directory that is there. -/
def createBelow (c : Naming) (disk : Disk) (root : Path) : Action Error Workdir := do
  let base := (← get).absolute root
  let l ← Files.mapError (.system root) (Files.locate base)
  let w : Workdir := ⟨base.child (c.name (← get) l)⟩
  Files.mapError (.system root) (disk.allow [] (Files.createDirectory w.path))
  w.orRemove
    (Files.mapError (.system w.source) (disk.allow ["source"] (Files.createDirectory w.source)))
  return w

/-- Creates a working directory with a name of some naming. -/
def createWith (c : Naming) (disk : Disk) (tempDir : Path) (root? : Option Path) :
    Action Error Workdir := do
  openRoot root?
  createBelow c disk (root?.getD tempDir)

/-- What the builder does: it takes the first name that is not in use. -/
theorem createOn_eq (disk : Disk) (tempDir : Path) (root? : Option Path) :
    Workdir.createOn disk tempDir root? = createWith .fresh disk tempDir root? := by
  cases root? <;> rfl

namespace Builder

/-- The directory in which working directories are created. -/
def root (b : Builder) : Path :=
  b.workRoot?.getD b.tempDir

/-- Builds a document once the directory for working directories is there. -/
def buildBelow (c : Naming) (b : Builder) (d : Document) (s : Store) : Built :=
  match createBelow c b.disk b.root s with
  | .error e s => ⟨.error e, d, s⟩
  | .ok w s => b.buildIn w d s

/-- Builds a document in a working directory with a name of some naming. -/
def buildWith (c : Naming) (b : Builder) (d : Document) (s : Store) : Built :=
  if d.places.isEmpty then ⟨.ok {}, d, s⟩
  else
    match openRoot b.workRoot? s with
    | .error e s => ⟨.error e, d, s⟩
    | .ok () s => b.buildBelow c d s

/-- The places on the way to working directories: those that the work root's path leads through, if
there is one, and those of the path from the root of all files. -/
def rootPlaces (b : Builder) (s : Store) : List Location :=
  b.workRoot?.elim [] (·.places s.current) ++ (s.absolute b.root).places s.current

/-- The places that the path of the work root leads through, if there is one. -/
def workPlaces (b : Builder) (s : Store) : List Location :=
  b.workRoot?.elim [] (·.places s.current)

theorem workPlaces_subset (b : Builder) (s : Store) : b.workPlaces s ⊆ b.rootPlaces s :=
  List.subset_append_left _ _

/-- Creating the work root changes places that its path leads through, and no others. -/
theorem openRoot_grown_work (b : Builder) (s : Store) :
    Store.Grown (b.workPlaces s) s (openRoot b.workRoot? s).store := by
  unfold workPlaces openRoot
  cases b.workRoot? with
  | none => exact Store.Grown.refl _ s
  | some root =>
    dsimp only
    rw [Files.mapError_store]
    exact Files.createAll_grown root s

theorem openRoot_grown (b : Builder) (s : Store) :
    Store.Grown (b.rootPlaces s) s (openRoot b.workRoot? s).store :=
  (b.openRoot_grown_work s).mono (b.workPlaces_subset s)

/-- What becomes of it depends on the places on the way to working directories. -/
theorem openRoot_parallel (b : Builder) {s t : Store} (h : Store.AgreeOn (b.rootPlaces s) s t) :
    Files.Parallel (b.rootPlaces s) (openRoot b.workRoot? s) (openRoot b.workRoot? t) := by
  have hroot : b.workRoot?.elim [] (·.places s.current) ⊆ b.rootPlaces s := b.workPlaces_subset s
  unfold openRoot
  cases hwork : b.workRoot? with
  | none => exact ⟨rfl, h⟩
  | some root =>
    rw [hwork] at hroot
    exact (Files.createAll_parallel h hroot).mapError _

theorem build_eq (b : Builder) (d : Document) (s : Store) : b.build d s = b.buildWith .fresh d s := by
  unfold build buildWith buildBelow
  rw [createOn_eq, createWith, Files.bind_apply]
  split
  · rfl
  · cases openRoot b.workRoot? s <;> rfl

end Builder

end DocWeave.Sphinx
