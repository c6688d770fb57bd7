import AdmController.PrecompiledPolicies

/-!
# The minimum version that a policy asks for

kwctl and the policy server check the minimum version of a policy against their
own. Only the policy server drops all but the major and minor number of its own.
-/

namespace Semver

/-- A version with its pre-release and build texts, empty when absent. -/
structure Version where
  (major minor patch : ℕ)
  (pre build : String)
deriving DecidableEq

/-! ## The checks -/

/-- The comparisons of the semver crate, and what they say of empty texts: a
pre-release is lower than its release, build metadata never is. -/
structure Order where
  (preLt buildLt : String → String → Bool)
  preLt_empty : ∀ p, preLt p "" = (p != "")
  buildLt_empty : ∀ b, buildLt b "" = false

namespace Version

def lt (order : Order) (v w : Version) : Bool :=
  v.major < w.major || v.major == w.major && (v.minor < w.minor
    || v.minor == w.minor && (v.patch < w.patch
      || v.patch == w.patch && (order.preLt v.pre w.pre
        || v.pre == w.pre && order.buildLt v.build w.build)))

def text (v : Version) : String :=
  toString v.major ++ "." ++ toString v.minor ++ "." ++ toString v.patch
    ++ (if v.pre = "" then "" else "-" ++ v.pre) ++ (if v.build = "" then "" else "+" ++ v.build)

/-- The version with its major and minor numbers alone. -/
def sanitized (v : Version) : Version := ⟨v.major, v.minor, 0, "", ""⟩

end Version

/-- The policy metadata, as far as the checks read it. -/
structure Metadata where
  minimumKubewardenVersion : Option Version

variable (order : Order)

/-- **`has_minimum_kubewarden_version` of kwctl**, built at version `v`. -/
def kwctlHasMinimumKubewardenVersion (v : Version) (metadata : Option Metadata) :
    Except String Unit :=
  match metadata.bind Metadata.minimumKubewardenVersion with
  | none => .ok ()
  | some minimum =>
    if v.lt order minimum.sanitized then
      .error ("Policy required Kubewarden version " ++ minimum.sanitized.text
        ++ " or greater. But it's running on " ++ v.text)
    else .ok ()

/-- **`has_minimum_kubewarden_version` of the policy server**, whose own version
is sanitized as well. -/
def serverHasMinimumKubewardenVersion (v : Version) (metadata : Metadata) : Except String Unit :=
  match metadata.minimumKubewardenVersion with
  | none => .ok ()
  | some minimum =>
    if v.sanitized.lt order minimum.sanitized then
      .error ("Policy required Kubewarden version " ++ minimum.sanitized.text
        ++ " but is running on " ++ v.sanitized.text)
    else .ok ()

/-! ## When both agree -/

/-- The major and minor numbers of a version are at least those of another. -/
def Version.AtLeast (v minimum : Version) : Prop :=
  minimum.major < v.major ∨ minimum.major = v.major ∧ minimum.minor ≤ v.minor

/-- `v` is a pre-release of the first release with the numbers of `minimum`. -/
def Version.PreReleaseOf (v minimum : Version) : Prop :=
  v.major = minimum.major ∧ v.minor = minimum.minor ∧ v.patch = 0 ∧ v.pre ≠ ""

instance (v minimum : Version) : Decidable (v.AtLeast minimum) :=
  inferInstanceAs (Decidable (_ ∨ _))

theorem Version.lt_sanitized (v minimum : Version) : v.lt order minimum.sanitized = true
    ↔ ¬v.AtLeast minimum ∨ v.PreReleaseOf minimum := by
  simp only [lt, Bool.or_eq_true, Bool.and_eq_true, decide_eq_true_eq, beq_iff_eq]
  simp only [sanitized, order.preLt_empty, order.buildLt_empty, AtLeast, PreReleaseOf, bne_iff_ne,
    Bool.false_eq_true, and_false, or_false, Nat.not_lt_zero, false_or]
  constructor
  · rintro (h | ⟨h, h' | ⟨h', hpatch, hpre⟩⟩)
    · left; omega
    · left; omega
    · exact .inr ⟨h, h', hpatch, hpre⟩
  · rintro (h | ⟨h, h', hpatch, hpre⟩)
    · omega
    · exact .inr ⟨h, .inr ⟨h', hpatch, hpre⟩⟩

theorem Version.not_preReleaseOf_sanitized (v minimum : Version) :
    ¬v.sanitized.PreReleaseOf minimum := fun h => h.2.2.2 rfl

theorem kwctlHasMinimumKubewardenVersion_eq_ok (v : Version) (metadata : Metadata) :
    kwctlHasMinimumKubewardenVersion order v (some metadata) = .ok ()
      ↔ ∀ minimum ∈ metadata.minimumKubewardenVersion,
        v.AtLeast minimum ∧ ¬v.PreReleaseOf minimum := by
  cases hmin : metadata.minimumKubewardenVersion with
  | none => simp [kwctlHasMinimumKubewardenVersion, hmin]
  | some minimum =>
    have hlt := v.lt_sanitized order minimum
    simp only [kwctlHasMinimumKubewardenVersion, Option.bind_some, hmin, Option.mem_some_iff,
      forall_eq']
    split
    · next h => simpa [or_iff_not_imp_left] using hlt.1 h
    · next h => simpa using mt hlt.2 h

theorem serverHasMinimumKubewardenVersion_eq_ok (v : Version) (metadata : Metadata) :
    serverHasMinimumKubewardenVersion order v metadata = .ok ()
      ↔ ∀ minimum ∈ metadata.minimumKubewardenVersion, v.AtLeast minimum := by
  -- the server's check is kwctl's one at its sanitized version, up to the text of the error
  have h := kwctlHasMinimumKubewardenVersion_eq_ok order v.sanitized metadata
  simp only [Version.not_preReleaseOf_sanitized, not_false_eq_true, and_true] at h
  refine Iff.trans ?_ h
  unfold serverHasMinimumKubewardenVersion kwctlHasMinimumKubewardenVersion
  cases hmin : metadata.minimumKubewardenVersion with
  | none => simp [hmin]
  | some minimum =>
    simp only [Option.bind_some, hmin]
    split <;> simp

/-- **The two checks agree except on pre-releases.** For every version and
metadata, kwctl accepts iff the policy server does, both by the major and minor
numbers, iff the version is not a pre-release of the minimum's first release. -/
theorem minimum_version_checks_agree_iff (v : Version) (metadata : Metadata) :
    (kwctlHasMinimumKubewardenVersion order v (some metadata) = .ok ()
      ↔ serverHasMinimumKubewardenVersion order v metadata = .ok ())
      ∧ (serverHasMinimumKubewardenVersion order v metadata = .ok ()
        ↔ ∀ minimum ∈ metadata.minimumKubewardenVersion, v.AtLeast minimum)
      ↔ ∀ minimum ∈ metadata.minimumKubewardenVersion, ¬v.PreReleaseOf minimum := by
  rw [serverHasMinimumKubewardenVersion_eq_ok, kwctlHasMinimumKubewardenVersion_eq_ok]
  constructor
  · rintro ⟨h, -⟩ minimum hmin hpre
    -- a pre-release has the numbers of its release, so the server accepts it
    have hserver : ∀ m ∈ metadata.minimumKubewardenVersion, v.AtLeast m := by
      intro m hm
      obtain rfl : m = minimum := Option.mem_unique hm hmin
      exact .inr ⟨hpre.1.symm, hpre.2.1.ge⟩
    exact (h.2 hserver minimum hmin).2 hpre
  · intro h
    exact ⟨⟨fun hk m hm => (hk m hm).1, fun hs m hm => ⟨hs m hm, h m hm⟩⟩, Iff.rfl⟩

/-- Built as 1.39.0-rc1, kwctl refuses a policy that asks for 1.39.0, and the
policy server accepts it. -/
theorem pre_release_refuses_its_release :
    let order : Order := ⟨fun p q => p != "" && q == "", fun _ _ => false, by simp, by simp⟩
    let v : Version := ⟨1, 39, 0, "rc1", ""⟩
    let metadata : Metadata := ⟨some ⟨1, 39, 0, "", ""⟩⟩
    (∃ e, kwctlHasMinimumKubewardenVersion order v (some metadata) = .error e)
      ∧ serverHasMinimumKubewardenVersion order v metadata = .ok () := by
  simp [kwctlHasMinimumKubewardenVersion, serverHasMinimumKubewardenVersion, Version.lt,
    Version.sanitized]

end Semver
