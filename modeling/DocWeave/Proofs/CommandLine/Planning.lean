import DocWeave.CommandLine.Run
import DocWeave.Proofs.CommandLine.Targets

/-!
# Planning

The targets of all sources are known before a document is built. The search for two sources that share
one stops at the first source whose target is already taken. In front of it the targets are distinct, so
there is only one source that can have taken it.

- `TargetsDiffer`: two sources with different targets.
- `FirstClash`: the first source whose target is already taken, and the source that has taken it.
- `Refusal`: why a build ends before anything is created or run.
- `FirstClash.unique`: there is only one such clash.
- `targetsOf_eq_ok`, `targetsOf_eq_error`: when there are paths for all sources, and when a conflict.
- `refusal_or_outputDir`: the ways in which a build ends with an error.
- `planned_or_refused`: the outcome of planning; a build that is refused has no effect.
-/

namespace DocWeave.CommandLine

variable {dir : Path} {format : Format} {sources earlier targets : List Path} {c c' : TargetConflict}
  {i j i' j' k m : Nat}

/-! ## The first clash -/

/-- Two sources with different targets. -/
def TargetsDiffer (dir : Path) (format : Format) (p q : Path) : Prop :=
  (targetOf dir format p).key ≠ (targetOf dir format q).key

/-- The first source whose target is the one of an earlier source. -/
structure FirstClash (dir : Path) (format : Format) (sources : List Path) (i j : Nat)
    (c : TargetConflict) : Prop where
  earlier : i < j
  first : sources[i]? = some c.first
  second : sources[j]? = some c.second
  target : c.target = targetOf dir format c.second
  shared : (targetOf dir format c.first).key = (targetOf dir format c.second).key
  /-- The sources in front of it have different targets. -/
  differ : (sources.take j).Pairwise (TargetsDiffer dir format)

/-- In front of the clash, any two sources differ. -/
theorem targetsDiffer_of_pairwise {p q : Path} (h : (sources.take j).Pairwise (TargetsDiffer dir format))
    (hk : k < m) (hm : m < j) (hp : sources[k]? = some p) (hq : sources[m]? = some q) :
    TargetsDiffer dir format p q := by
  obtain ⟨hklen, rfl⟩ := List.getElem?_eq_some_iff.mp hp
  obtain ⟨hmlen, rfl⟩ := List.getElem?_eq_some_iff.mp hq
  have hdiffer := List.pairwise_iff_getElem.mp h k m (by simp; omega) (by simp; omega) hk
  simpa using hdiffer

/-- There is only one first clash. -/
theorem FirstClash.unique (h : FirstClash dir format sources i j c)
    (h' : FirstClash dir format sources i' j' c') : i = i' ∧ j = j' ∧ c = c' := by
  -- Of two clashes with different sources, the earlier one is among sources that differ.
  obtain rfl : j = j' := by
    rcases Nat.lt_trichotomy j j' with hlt | heq | hlt
    · exact absurd h.shared (targetsDiffer_of_pairwise h'.differ h.earlier hlt h.first h.second)
    · exact heq
    · exact absurd h'.shared (targetsDiffer_of_pairwise h.differ h'.earlier hlt h'.first h'.second)
  have hsecond : c.second = c'.second := Option.some.inj (h.second.symm.trans h'.second)
  -- Both share their target with the same source, so they share it with each other.
  have hkeys : (targetOf dir format c.first).key = (targetOf dir format c'.first).key := by
    rw [h.shared, h'.shared, hsecond]
  obtain rfl : i = i' := by
    rcases Nat.lt_trichotomy i i' with hlt | heq | hlt
    · exact absurd hkeys (targetsDiffer_of_pairwise h.differ hlt h'.earlier h.first h'.first)
    · exact heq
    · exact absurd hkeys.symm (targetsDiffer_of_pairwise h.differ hlt h.earlier h'.first h.first)
  have hfirst : c.first = c'.first := Option.some.inj (h.first.symm.trans h'.first)
  have htarget : c.target = c'.target := by rw [h.target, h'.target, hsecond]
  refine ⟨rfl, rfl, ?_⟩
  cases c
  cases c'
  cases hfirst
  cases hsecond
  cases htarget
  rfl

theorem FirstClash.not_pairwise (h : FirstClash dir format sources i j c) :
    ¬ sources.Pairwise (TargetsDiffer dir format) := fun hall =>
  targetsDiffer_of_pairwise (hall.sublist (List.take_sublist _ _)) h.earlier (Nat.lt_succ_self j)
    h.first h.second h.shared

/-! ## The search for it -/

/-- Behind sources with different targets, the search fails at the first clash. -/
theorem exists_firstClash (hearlier : earlier.Pairwise (TargetsDiffer dir format))
    (h : targetsAfter dir format earlier sources = .error c) :
    ∃ i j, FirstClash dir format (earlier ++ sources) i j c := by
  induction sources generalizing earlier with
  | nil => cases h
  | cons source rest ih =>
    rw [targetsAfter] at h
    split at h
    · rename_i first hfind
      obtain rfl := Except.error.inj h
      obtain ⟨i, hi⟩ := List.mem_iff_getElem?.mp (List.mem_of_find?_eq_some hfind)
      have hlt : i < earlier.length := (List.getElem?_eq_some_iff.mp hi).1
      have hkeys : (targetOf dir format first).key = (targetOf dir format source).key := by
        simpa using List.find?_some hfind
      refine ⟨i, earlier.length, ?_⟩
      constructor
      case earlier => exact hlt
      case first => rw [List.getElem?_append_left hlt, hi]
      case second => simp
      case target => dsimp only
      case shared => exact hkeys
      case differ => rwa [List.take_left]
    · rename_i hfind
      have hnew : ∀ p ∈ earlier, TargetsDiffer dir format p source := by
        simpa [TargetsDiffer] using hfind
      have hnext : (earlier ++ [source]).Pairwise (TargetsDiffer dir format) := by
        refine List.pairwise_append.mpr ⟨hearlier, List.pairwise_singleton _ _, fun p hp q hq => ?_⟩
        rw [List.mem_singleton.mp hq]
        exact hnew p hp
      cases hrest : targetsAfter dir format (earlier ++ [source]) rest with
      | error e =>
        rw [hrest] at h
        cases h
        simpa using ih hnext hrest
      | ok more =>
        rw [hrest] at h
        cases h

/-- Targets are planned if all sources differ, and then each has its own. -/
theorem targetsOf_eq_ok : targetsOf dir format sources = .ok targets ↔
    sources.Pairwise (TargetsDiffer dir format) ∧ targets = sources.map (targetOf dir format) := by
  refine ⟨fun h => ?_, fun ⟨hdiffer, htargets⟩ => ?_⟩
  · obtain ⟨htargets, hdiffer, -⟩ := targetsAfter_ok h
    exact ⟨hdiffer, htargets⟩
  · cases h : targetsOf dir format sources with
    | error c =>
      obtain ⟨i, j, hclash⟩ := exists_firstClash .nil h
      exact absurd hdiffer hclash.not_pairwise
    | ok more =>
      obtain ⟨rfl, -, -⟩ := targetsAfter_ok h
      rw [htargets]

/-- Otherwise planning fails at the first clash. -/
theorem targetsOf_eq_error : targetsOf dir format sources = .error c ↔
    ∃ i j, FirstClash dir format sources i j c := by
  refine ⟨exists_firstClash .nil, fun ⟨i, j, hclash⟩ => ?_⟩
  -- The search finds a clash, and there is only one.
  cases h : targetsOf dir format sources with
  | error c' =>
    obtain ⟨i', j', hclash'⟩ := exists_firstClash .nil h
    obtain ⟨-, -, rfl⟩ := hclash.unique hclash'
    rfl
  | ok targets =>
    obtain ⟨hdiffer, -⟩ := targetsOf_eq_ok.mp h
    exact absurd hdiffer hclash.not_pairwise

/-! ## Refusals -/

/-- Why a build ends before anything is created or run: its settings cannot be loaded, or two of its
sources share a target. -/
inductive Refusal (environment : Environment) (sources : List Path) (config? : Option Path)
    (overrides : Settings.Overrides) (s : Store) : CommandError → Prop where
  | settings {error : Settings.Error}
      (hload : Settings.load s environment config? (some overrides) = .error error) :
      Refusal environment sources config? overrides s (.settings error)
  | conflict {settings : Settings} {i j : Nat} {c : TargetConflict}
      (hload : Settings.load s environment config? (some overrides) = .ok settings)
      (hclash : FirstClash settings.outputDir settings.format sources i j c) :
      Refusal environment sources config? overrides s (.conflict c)

variable {h : Host} {config? : Option Path} {overrides : Settings.Overrides} {s s' : Store}
  {e : CommandError}

/-- A build that is refused has not changed anything. -/
theorem Refusal.build_eq (hrefusal : Refusal h.environment sources config? overrides s e) :
    build h sources config? overrides s = .error e s := by
  cases hrefusal with
  | settings hload => rw [build, hload]
  | conflict hload hclash =>
    rw [build, hload]
    dsimp only
    rw [targetsOf_eq_error.mpr ⟨_, _, hclash⟩]

/-- A build that ends with an error is refused, or its output directory cannot be created. -/
theorem refusal_or_outputDir (herror : build h sources config? overrides s = .error e s') :
    s' = s ∧ Refusal h.environment sources config? overrides s e ∨
      ∃ path error, e = .outputDir path error := by
  unfold build at herror
  split at herror
  · rename_i hload
    cases herror
    exact .inl ⟨rfl, .settings hload⟩
  · rename_i hload
    split at herror
    · rename_i htargets
      cases herror
      obtain ⟨i, j, hclash⟩ := targetsOf_eq_error.mp htargets
      exact .inl ⟨rfl, .conflict hload hclash⟩
    · split at herror
      · cases herror
        exact .inr ⟨_, _, rfl⟩
      · cases herror

/-- **The outcome of planning, and builds without effect.** Sources with different targets have them in
order, and others have the conflict of the first source whose target is already taken. A build that ends
because of its settings or such a conflict leaves all files and directories as they are. It ends so
whatever Sphinx would do, which is not called. -/
theorem planned_or_refused :
    (∀ dir format sources targets, targetsOf dir format sources = .ok targets ↔
      sources.Pairwise (TargetsDiffer dir format) ∧ targets = sources.map (targetOf dir format)) ∧
    (∀ dir format sources c, targetsOf dir format sources = .error c ↔
      ∃ i j, FirstClash dir format sources i j c) ∧
    ∀ (h : Host) (a : BuildArguments) (s s' : Store) (e : CommandError),
      build h a.files a.config? a.overrides s = .error e s' →
      ((∃ error, e = .settings error) ∨ ∃ c, e = .conflict c) →
      s' = s ∧ Refusal h.environment a.files a.config? a.overrides s e ∧
        ∀ host : Host, host.environment = h.environment →
          build host a.files a.config? a.overrides s = .error e s ∧
          ∀ arguments, Command.parse h.environment arguments = .ok (.build a) →
            run host arguments s = failed e.message s := by
  refine ⟨fun _ _ _ _ => targetsOf_eq_ok, fun _ _ _ _ => targetsOf_eq_error, ?_⟩
  intro h a s s' e herror hearly
  rcases refusal_or_outputDir herror with ⟨rfl, hrefusal⟩ | ⟨path, error, rfl⟩
  · refine ⟨rfl, hrefusal, fun host henvironment => ?_⟩
    rw [← henvironment] at hrefusal ⊢
    have hbuild := hrefusal.build_eq
    refine ⟨hbuild, fun arguments harguments => ?_⟩
    rw [run, harguments]
    dsimp only
    rw [replyBuild, hbuild]
  · rcases hearly with ⟨_, heq⟩ | ⟨_, heq⟩ <;> cases heq

/-- Two sources for one target, and a configuration file that is missing. -/
theorem planned_or_refused_sharedTarget :
    let a : BuildArguments := { files := [⟨"a/index.md"⟩, ⟨"c/other.md"⟩, ⟨"b/index.md"⟩] }
    let c : TargetConflict := ⟨⟨"/build/index.html"⟩, ⟨"a/index.md"⟩, ⟨"b/index.md"⟩⟩
    targetsOf ⟨"/build"⟩ .html a.files = .error c ∧ (∃ i j, FirstClash ⟨"/build"⟩ .html a.files i j c) ∧
      c.message = "a/index.md and b/index.md would both be written to /build/index.html" ∧
      ∀ spawn : Sphinx.Spawn,
        run { tempDir := ⟨"/tmp"⟩, spawn } ["build", "a/index.md", "c/other.md", "b/index.md"] {} =
          failed c.message {} ∧
        run { tempDir := ⟨"/tmp"⟩, spawn } ["build", "-c", "x.toml", "a.md"] {} =
          failed (Settings.Error.notFound ⟨"x.toml"⟩).message {} := by
  intro a c
  have htargets : targetsOf ⟨"/build"⟩ .html a.files = .error c := by decide +kernel
  have hload : Settings.load {} [] none (some {}) = .ok (Settings.default ⟨"/"⟩) := by decide +kernel
  have hmissing : Settings.load {} [] (some ⟨"x.toml"⟩) (some {}) = .error (.notFound ⟨"x.toml"⟩) := by
    decide +kernel
  have hshared : Command.parse [] ["build", "a/index.md", "c/other.md", "b/index.md"] =
      .ok (.build a) := by
    decide +kernel
  have hother : Command.parse [] ["build", "-c", "x.toml", "a.md"] =
      .ok (.build ⟨[⟨"a.md"⟩], {}, some ⟨"x.toml"⟩⟩) := by
    decide +kernel
  obtain ⟨-, hclash, hrefused⟩ := planned_or_refused
  have hmessage : c.message =
      "a/index.md and b/index.md would both be written to /build/index.html" := by
    decide +kernel
  refine ⟨htargets, (hclash _ _ _ c).mp htargets, hmessage, fun spawn => ⟨?_, ?_⟩⟩
  · have hbuild : build { tempDir := ⟨"/tmp"⟩, spawn } a.files none {} {} = .error (.conflict c) {} := by
      rw [build, hload]
      dsimp only
      rw [show targetsOf (Settings.default ⟨"/"⟩).outputDir (Settings.default ⟨"/"⟩).format a.files =
        .error c from htargets]
    obtain ⟨-, -, hsame⟩ := hrefused _ a {} {} _ hbuild (.inr ⟨c, rfl⟩)
    exact (hsame _ rfl).2 _ hshared
  · have hbuild : build { tempDir := ⟨"/tmp"⟩, spawn } [⟨"a.md"⟩] (some ⟨"x.toml"⟩) {} {} =
        .error (.settings (.notFound ⟨"x.toml"⟩)) {} := by
      rw [build, hmissing]
    obtain ⟨-, -, hsame⟩ := hrefused _ ⟨[⟨"a.md"⟩], {}, some ⟨"x.toml"⟩⟩ {} {} _ hbuild (.inl ⟨_, rfl⟩)
    exact (hsame _ rfl).2 _ hother

end DocWeave.CommandLine
