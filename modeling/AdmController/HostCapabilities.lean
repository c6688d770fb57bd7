import Mathlib.Data.Finset.Sort
import AdmController.RustStr

/-!
# Host capabilities

The host capabilities granted to a policy, given as patterns: `*` for
everything, `oci/*` or `oci/v2/*` for a subtree, `oci/v1/verify` for one
operation.
-/

open RustStr

inductive HostCapabilitiesPatternError where
  | invalidWildcard (pattern : String)
  | empty
  | unknownSegment (pattern segment validOptions : String)
  | incompleteCapabilityPath (pattern suggestion : String)
deriving DecidableEq

def HostCapabilitiesPatternError.text : HostCapabilitiesPatternError → String
  | .invalidWildcard pattern => "invalid pattern " ++ debug pattern
    ++ ": wildcard '*' must be the entire last path segment (e.g. 'oci/*'), not a partial match"
  | .empty => "invalid pattern: pattern must not be empty"
  | .unknownSegment pattern segment validOptions => "invalid pattern "
    ++ debug pattern ++ ": unknown segment "
    ++ debug segment ++ ", valid options at this level are: "
    ++ validOptions
  | .incompleteCapabilityPath pattern suggestion => "invalid pattern "
    ++ debug pattern ++ ": not a complete capability path; use "
    ++ debug suggestion ++ " to allow all capabilities under it"

/-- A node of the tree of capability paths: an operation, or the children of an
intermediate node, in the order of their names. -/
inductive CapabilityNode where
  | leaf
  | node (children : List (String × CapabilityNode))

def capabilityTree : List (String × CapabilityNode) :=
  [("crypto", .node [("v1", .node [("is_certificate_trusted", .leaf)])]),
    ("kubernetes", .node [("can_i", .leaf), ("get_resource", .leaf),
      ("list_resources_all", .leaf), ("list_resources_by_namespace", .leaf)]),
    ("net", .node [("v1", .node [("dns_lookup_host", .leaf)])]),
    ("oci", .node [("v1", .node [("manifest_digest", .leaf), ("oci_manifest", .leaf),
      ("oci_manifest_config", .leaf), ("verify", .leaf)]),
      ("v2", .node [("verify", .leaf)])])]

mutual

def CapabilityNode.walk (path : List String) : CapabilityNode → List (String × String)
  | .leaf => [(path.headD "", String.intercalate "/" path.tail)]
  | .node children => walkChildren path children

def walkChildren (path : List String) : List (String × CapabilityNode) → List (String × String)
  | [] => []
  | (segment, child) :: rest => child.walk (path ++ [segment]) ++ walkChildren path rest

end

def validateSegments (pattern : String) : List (String × CapabilityNode) → List String →
      Except HostCapabilitiesPatternError Unit
  | _, [] => .ok ()
  | children, part :: rest =>
    if part = "*" then .ok ()
    else match children.lookup part with
    | none => .error (.unknownSegment pattern part
      (String.intercalate ", " (children.map Prod.fst)))
    | some .leaf =>
      match rest with
      | [] => .ok ()
      | next :: _ => .error (.unknownSegment pattern next "")
    | some (.node children') =>
      match rest with
      | [] => .error (.incompleteCapabilityPath pattern (pattern ++ "/*"))
      | next :: rest' => validateSegments pattern children' (next :: rest')

def validateAgainstTree (pattern : String) : Except HostCapabilitiesPatternError Unit :=
  validateSegments pattern capabilityTree (split pattern '/')

inductive HostCapabilities where
  | denyAll
  | allowAll
  | patterns (prefixes exact : Finset String)
deriving DecidableEq

def HostCapabilities.enumerateOperations : List (String × String) :=
  (walkChildren [] capabilityTree).mergeSort (fun a b => decide (a.1 < b.1 ∨ a.1 = b.1 ∧ a.2 ≤ b.2))

def HostCapabilities.collect (prefixes exact : Finset String) :
    List String → Except HostCapabilitiesPatternError HostCapabilities
  | [] =>
    if prefixes = ∅ ∧ exact = ∅ then .ok .denyAll
    else .ok (.patterns prefixes exact)
  | pattern :: rest =>
    let trimmed := trim pattern
    if trimmed = "" then .error .empty
    else if trimmed = "*" then .ok .allowAll
    else if contains trimmed '*' && !endsWith trimmed "/*" then .error (.invalidWildcard pattern)
    else match validateAgainstTree trimmed with
    | .error e => .error e
    | .ok () =>
      match stripSuffix trimmed "*" with
      | some pre => collect (insert pre prefixes) exact rest
      | none => collect prefixes (insert trimmed exact) rest

open HostCapabilities

def HostCapabilities.new (patterns : List String) :
    Except HostCapabilitiesPatternError HostCapabilities :=
  collect ∅ ∅ patterns

def HostCapabilities.tryFrom (patterns : List String) :
    Except HostCapabilitiesPatternError HostCapabilities :=
  new patterns

def HostCapabilities.toVec : HostCapabilities → List String
  | .allowAll => ["*"]
  | .denyAll => []
  | .patterns prefixes exact => (prefixes.sort (· ≤ ·)).map (· ++ "*") ++ exact.sort (· ≤ ·)

def HostCapabilities.isAllowed (capabilityPath : String) : HostCapabilities → Bool
  | .allowAll => true
  | .denyAll => false
  | .patterns prefixes exact => decide (capabilityPath ∈ exact)
      || decide (∃ p ∈ prefixes, startsWith capabilityPath p = true)

example : new ["oci/v1/verify", "net/*"]
    = .ok (.patterns {"net/"} {"oci/v1/verify"}) := by decide +kernel
