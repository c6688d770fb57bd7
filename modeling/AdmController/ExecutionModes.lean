import AdmController.AcceptedPlans
import AdmController.PrecompiledPolicies

/-!
# The execution mode of a policy

The execution mode of a policy is declared in a custom section, but modules are
shared through the digest of the compiled code, which has none.
-/

open List PrecompiledPolicy

variable {M : Type} (b : EvaluationEnvironmentBuilder M) (lib : WasmLib)
  (files : HashMap String (Except String (List UInt8)))

def EvaluationEnvironmentBuilder.Loadable (p : PrecompiledPolicy) : Prop :=
  ∃ module pre, b.engine.deserialize p.precompiledModule = .ok module
    ∧ buildPre b.engine module p.executionMode b.policyMemoryLimitBytes = .ok pre

def CompilesTo (url : String) (contents : List UInt8) (p : PrecompiledPolicy) : Prop :=
  files.lookup url = some (.ok contents) ∧ new lib contents = .ok p

/-- **The first file for some code** that can be loaded has these contents. -/
def FirstLoadable (steps : List Step) (code contents : List UInt8) : Prop :=
  ∃ l j l' p, steps = l ++ .item j :: l'
    ∧ CompilesTo lib files j.url contents p ∧ p.precompiledModule = code
    ∧ b.Loadable p
    ∧ ∀ k contents' q, .item k ∈ l → CompilesTo lib files k.url contents' q →
      q.precompiledModule = code → ¬ b.Loadable q

def RunsInOwnMode (env : EvaluationEnvironment M) (i : Item) : Prop :=
  ∀ d, env.policyIdToModuleDigest.lookup i.id = some d →
    ∃ contents p pre, CompilesTo lib files i.url contents p
      ∧ env.moduleDigestToPolicyEvaluatorPre.lookup d = some pre
      ∧ declaredMode lib contents = .ok pre.executionMode
      ∧ b.createPre i.id p = .ok pre

section

variable {b lib files}

theorem loadable_iff {id : PolicyID} {p : PrecompiledPolicy} :
    b.Loadable p ↔ ∃ pre, b.createPre id p = .ok pre := by
  simp only [b.createPre_eq_ok]
  exact exists_comm

variable (hfiles : b.precompiledPolicies = precompilePolicies lib files)
  (hsha : Function.Injective lib.sha256)

include hfiles in
theorem compiled_iff {url : String} {p : PrecompiledPolicy} : b.compiled url = some p
    ↔ ∃ contents, CompilesTo lib files url contents p := by
  rw [b.compiled_eq_some, hfiles]
  exact lookup_precompilePolicies lib

include hfiles hsha in
theorem sharedPre_iff {steps : List Step} {code : List UInt8} {pre : PolicyEvaluatorPre M} :
    steps.findSome? (b.offeredPre (lib.sha256 code)) = some pre
      ↔ ∃ l j l' contents p, steps = l ++ .item j :: l'
        ∧ CompilesTo lib files j.url contents p ∧ p.precompiledModule = code
        ∧ b.createPre j.id p = .ok pre
        ∧ ∀ k contents' q, .item k ∈ l → CompilesTo lib files k.url contents' q →
          q.precompiledModule = code → ¬ b.Loadable q := by
  -- under injectivity, the digest stands for the code
  have hdigest : ∀ {contents p}, new lib contents = .ok p →
      (p.digest = lib.sha256 code ↔ p.precompiledModule = code) := by
    intro contents p hp
    rw [(new_eq_ok lib hp).2.2]
    exact hsha.eq_iff
  rw [findSome?_eq_some_iff]
  constructor
  · rintro ⟨l, s, l', rfl, hs, hl⟩
    obtain ⟨j, p, rfl, hp, hd, hpre⟩ := b.offeredPre_eq_some.1 hs
    obtain ⟨contents, hp⟩ := (compiled_iff hfiles).1 hp
    refine ⟨l, j, l', contents, p, rfl, hp, (hdigest hp.2).1 hd, hpre, ?_⟩
    intro k contents' q hk hq hcode hload
    obtain ⟨pre', hpre'⟩ := loadable_iff.1 hload
    have hoffer := b.offeredPre_eq_some.2 ⟨k, q, rfl,
      (compiled_iff hfiles).2 ⟨contents', hq⟩, (hdigest hq.2).2 hcode, hpre'⟩
    rw [hl _ hk] at hoffer
    cases hoffer
  · rintro ⟨l, j, l', contents, p, rfl, hp, hcode, hpre, hl⟩
    refine ⟨l, .item j, l', rfl, b.offeredPre_eq_some.2 ⟨j, p, rfl,
      (compiled_iff hfiles).2 ⟨contents, hp⟩, (hdigest hp.2).2 hcode, hpre⟩,
      fun s hs => ?_⟩
    cases hoffer : b.offeredPre (lib.sha256 code) s with
    | none => rfl
    | some pre' =>
      obtain ⟨k, q, rfl, hq, hd, hpre'⟩ := b.offeredPre_eq_some.1 hoffer
      obtain ⟨contents', hq⟩ := (compiled_iff hfiles).1 hq
      exact absurd (loadable_iff.2 ⟨pre', hpre'⟩) (hl k contents' q hs hq ((hdigest hq.2).1 hd))

include hfiles hsha in
/-- **When policies run in their own modes**: exactly when, for each of them,
the first file with the same code that can be loaded declares the same mode. -/
theorem execution_modes_own_iff {policies : Policies} {env : EvaluationEnvironment M}
    (hvalid : validatePolicies policies = .ok ())
    (hbuild : b.buildEvaluationEnvironment policies = .ok env) :
    (∀ i, .item i ∈ plan policies → RunsInOwnMode b lib files env i)
      ↔ ∀ l i l' contents p contents', plan policies = l ++ .item i :: l' →
        CompilesTo lib files i.url contents p →
        FirstLoadable b lib files (l ++ [.item i]) p.precompiledModule contents' →
        declaredMode lib contents' = declaredMode lib contents := by
  constructor
  · intro hown l i l' contents p contents' hplan hp hfirst
    obtain ⟨l₁, j, l₂, p', hsplit, hp', hcode, hload, hl₁⟩ := hfirst
    obtain ⟨pre, hpre⟩ := loadable_iff.1 hload
    have hdigest := (new_eq_ok lib hp.2).2.2
    have hshared := (sharedPre_iff hfiles hsha).2
      ⟨l₁, j, l₂, contents', p', hsplit, hp', hcode, hpre, hl₁⟩
    rw [← hdigest] at hshared
    -- the item is registered with the module of the first file
    have hreg := (registered_iff hvalid hbuild hplan).2
      ⟨p, pre, (compiled_iff hfiles).2 ⟨contents, hp⟩, rfl, hshared⟩
    have hlookup := lookup_cache_of_shared hbuild (hplan.trans (append_cons _ _ _)) hshared
    have hi : .item i ∈ plan policies := by
      rw [hplan]
      exact mem_append_right _ mem_cons_self
    obtain ⟨_, _, pre₁, hp₁, hpre₁, hmode, -⟩ := hown i hi p.digest hreg
    cases hlookup.symm.trans hpre₁
    cases hp.1.symm.trans hp₁.1
    rw [hmode, (b.eq_of_createPre hpre).2.1]
    exact (new_eq_ok lib hp'.2).1
  · intro hagree i hi d hd
    obtain ⟨l, l', hplan⟩ := append_of_mem hi
    obtain ⟨p, pre, hp, rfl, hshared⟩ := (registered_iff hvalid hbuild hplan).1 hd
    have hlookup := lookup_cache_of_shared hbuild (hplan.trans (append_cons _ _ _)) hshared
    obtain ⟨contents, hp⟩ := (compiled_iff hfiles).1 hp
    obtain ⟨hmode, -, hdigest⟩ := new_eq_ok lib hp.2
    rw [hdigest] at hshared
    obtain ⟨l₁, j, l₂, contents', p', hsplit, hp', hcode, hpre, hl₁⟩ :=
      (sharedPre_iff hfiles hsha).1 hshared
    have hsame := hagree l i l' contents p contents' hplan hp
      ⟨l₁, j, l₂, p', hsplit, hp', hcode, loadable_iff.2 ⟨pre, hpre⟩, hl₁⟩
    have hmode' := (new_eq_ok lib hp'.2).1
    have heq : p'.executionMode = p.executionMode :=
      Except.ok.inj (hmode'.symm.trans (hsame.trans hmode))
    refine ⟨contents, p, pre, hp, hlookup, ?_, b.createPre_congr hcode heq hpre⟩
    rw [(b.eq_of_createPre hpre).2.1, heq]
    exact hmode

end

/-! ## Two modes for the same code -/

def WasmLib.IgnoresCustomSections (lib : WasmLib) : Prop :=
  ∀ contents contents', (lib.parseAll contents).filter (fun
      | .ok (.customSection _ _) => false
      | _ => true)
      = (lib.parseAll contents').filter (fun
        | .ok (.customSection _ _) => false
        | _ => true) →
    lib.precompileModule contents = lib.precompileModule contents'

def WasmLib.oneByteMetadata : WasmLib where
  parseAll
    | [] => []
    | mode :: code =>
      [.ok (.customSection kubewardenCustomSectionMetadata [mode]), .ok (.other code)]
  metadataFromSlice
    | [0] => .ok ⟨none, .opa, none⟩
    | [1] => .ok ⟨none, .opaGatekeeper, none⟩
    | _ => .error "unknown mode"
  ferricelCheckAbiVersion := fun _ => .ok ()
  precompileModule
    | [] => .error "empty file"
    | _ :: code => .ok code
  sha256 := fun code => String.ofList (code.map (fun x => Char.ofNat x.toNat))

theorem WasmLib.oneByteMetadata_ignoresCustomSections : oneByteMetadata.IgnoresCustomSections := by
  intro contents contents' h
  cases contents with
  | nil =>
    cases contents' with
    | nil => rfl
    | cons mode' code' => cases h
  | cons mode code =>
    cases contents' with
    | nil => cases h
    | cons mode' code' =>
      cases h
      rfl

theorem WasmLib.oneByteMetadata_sha256_injective : Function.Injective oneByteMetadata.sha256 := by
  have hbyte : ∀ x : UInt8, (Char.ofNat x.toNat).toNat = x.toNat := by
    intro x
    have hlt := x.toNat_lt
    unfold Char.ofNat
    rw [dif_pos (Or.inl (by omega))]
    rfl
  have hinj : Function.Injective (fun x : UInt8 => Char.ofNat x.toNat) := by
    intro x y hxy
    have hnat := congrArg Char.toNat hxy
    simp only [hbyte] at hnat
    exact UInt8.toNat_inj.1 hnat
  intro code code' h
  exact hinj.list_map (String.ofList_injective h)

def twoPolicies : Policies :=
  (AList.singleton "q" (.policy (.ofModule "registry://q"))).insert "p"
    (.policy (.ofModule "registry://p"))

def twoFiles (mode mode' : UInt8) : HashMap String (Except String (List UInt8)) :=
  (AList.singleton "registry://q" (.ok [mode', 7])).insert "registry://p" (.ok [mode, 7])

def twoModulesBuilder (mode mode' : UInt8) : EvaluationEnvironmentBuilder (List UInt8) where
  engine := .trusting
  precompiledPolicies := precompilePolicies .oneByteMetadata (twoFiles mode mode')
  continueOnErrors := false
  globalPolicyEvaluationLimitSeconds := none
  policyMemoryLimitBytes := none
  alwaysAcceptAdmissionReviewsOnNamespace := none

/-- **A Gatekeeper policy is evaluated as an OPA policy** with the same code
that was registered before. -/
theorem gatekeeper_policy_runs_as_opa : WasmLib.oneByteMetadata.IgnoresCustomSections
      ∧ Function.Injective WasmLib.oneByteMetadata.sha256
      ∧ validatePolicies twoPolicies = .ok ()
      ∧ declaredMode .oneByteMetadata [1, 7] = .ok .opaGatekeeper
      ∧ ∃ env evaluator, (twoModulesBuilder 0 1).buildEvaluationEnvironment twoPolicies = .ok env
        ∧ env.rehydrate (twoModulesBuilder 0 1).engine (.policy "q") = .ok evaluator
        ∧ evaluator.pre.executionMode = .opa :=
  ⟨WasmLib.oneByteMetadata_ignoresCustomSections,
    WasmLib.oneByteMetadata_sha256_injective, rfl, rfl, _, _, rfl, rfl, rfl⟩

theorem contents_twoFiles {mode : UInt8} {url : String} {contents : List UInt8}
    (h : (twoFiles mode mode).lookup url = some (.ok contents)) :
    contents = [mode, 7] := by
  rcases mem_cons.1 (AList.mem_lookup_iff.1 h) with hp | hq
  · cases hp
    rfl
  · cases mem_singleton.1 hq
    rfl

theorem execution_modes_own_sameMode :
    ∃ env, (twoModulesBuilder 0 0).buildEvaluationEnvironment twoPolicies = .ok env
      ∧ ∀ i, .item i ∈ plan twoPolicies →
        RunsInOwnMode (twoModulesBuilder 0 0) .oneByteMetadata (twoFiles 0 0) env i := by
  have hbuild : (twoModulesBuilder 0 0).buildEvaluationEnvironment twoPolicies = .ok _ := rfl
  refine ⟨_, hbuild, (execution_modes_own_iff rfl
    WasmLib.oneByteMetadata_sha256_injective rfl hbuild).2 ?_⟩
  intro l i l' contents p contents' _ hp hfirst
  obtain ⟨_, j, _, _, _, hj, -⟩ := hfirst
  rw [contents_twoFiles hp.1, contents_twoFiles hj.1]
