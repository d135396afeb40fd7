import ParallelForge.Policy.Command

/-!
# Policy paths (`domain/paths.py`)

A path of a policy is relative, spelled with forward slashes and without detours,
and names nothing that Windows or the repository keeps for itself. The result of
the check is the path itself, so checking once more changes nothing.
-/

namespace ParallelForge.Policy
open Base Redaction

/-- `os.name == "nt"`, and `str.casefold`. -/
structure Platform where
  nt : Bool
  casefold : Str → Str

variable (p : Platform)

/-- `policy_path_key`. -/
def Platform.pathKey (value : Str) : Str := if p.nt then p.casefold value else value

def windowsDeviceNames : List Str :=
  ["aux", "clock$", "con", "com1", "com2", "com3", "com4", "com5", "com6", "com7", "com8", "com9",
    "lpt1", "lpt2", "lpt3", "lpt4", "lpt5", "lpt6", "lpt7", "lpt8", "lpt9", "nul", "prn"].map codes

def reservedRepositoryComponents : List Str :=
  [".git", ".worktrees", ".forge", ".forge-acceptance", ".forge-worktrees", "node_modules", ".venv",
    "venv", "env"].map codes

/-- `_DRIVE_PREFIX`. -/
def drivePrefix : Str → Bool
  | c :: 58 :: _ => isAsciiLetter c
  | _ => false

/-- `_unsafe_windows_component`. -/
def unsafeWindowsComponent (value : Str) : Bool :=
  value.contains 58 || value.getLast? == some 46 || value.getLast? == some 32 ||
    windowsDeviceNames.contains
      (p.casefold ((value.rdropWhile fun c => c == 32 || c == 46).takeWhile (· != 46)))

/-- `policy_path_key` of a component is in `reserved`. -/
def reservedComponent (value : Str) : Bool :=
  (reservedRepositoryComponents.map p.pathKey).contains (p.pathKey value)

/-- `normalize_policy_path` (`paths.py:56-76`). -/
def normalizePolicyPath (value : Str) : Except String Str :=
  let parts := value.splitOn 47
  if (value == [] || isBlank value) = true then
    .error "policy paths must be nonblank canonical repository paths"
  else if (value.contains 0 || value.contains 92) = true then
    .error "policy paths must use canonical forward slashes"
  else if (value.head? == some 47 || drivePrefix value) = true then
    .error "policy paths must be relative"
  else if (parts.any fun part => part == [] || part == codes "." || part == codes "..") = true then
    .error "policy paths must not contain traversal or empty components"
  else if value ≠ [47].intercalate parts then .error "policy paths must use canonical spelling"
  else if parts.any (unsafeWindowsComponent p) = true then
    .error "policy paths contain an unsafe Windows component"
  else if parts.any (reservedComponent p) = true then
    .error "policy paths contain a reserved repository component"
  else .ok value

/-- The loop of `normalize_policy_paths`; `seen` holds the keys so far. -/
def collectPolicyPaths : List Str → List Str → Except String (List Str)
  | _, [] => .ok []
  | seen, value :: rest => do
    let path ← normalizePolicyPath p value
    require (p.pathKey path ∉ seen) "policy paths must not contain duplicates"
    let paths ← collectPolicyPaths (p.pathKey path :: seen) rest
    return path :: paths

/-- `normalize_policy_paths` (`paths.py:88-98`). -/
def normalizePolicyPaths (values : List Str) : Except String (List Str) :=
  collectPolicyPaths p [] values

variable {p}

theorem normalizePolicyPath_eq (value path : Str) (h : normalizePolicyPath p value = .ok path) :
    path = value := by
  simp only [normalizePolicyPath] at h
  split at h
  · cases h
  split at h
  · cases h
  split at h
  · cases h
  split at h
  · cases h
  split at h
  · cases h
  split at h
  · cases h
  split at h
  · cases h
  cases h
  rfl

theorem collectPolicyPaths_eq (values seen paths : List Str)
    (h : collectPolicyPaths p seen values = .ok paths) : paths = values := by
  induction values generalizing seen paths with
  | nil =>
    cases h
    rfl
  | cons value rest ih =>
    rw [collectPolicyPaths, bind_eq_ok] at h
    obtain ⟨path, hpath, h⟩ := h
    rw [require_bind_eq_ok] at h
    obtain ⟨-, h⟩ := h
    rw [bind_eq_ok] at h
    obtain ⟨others, hothers, h⟩ := h
    cases h
    rw [normalizePolicyPath_eq value path hpath, ih _ others hothers]

/-- Accepted paths are accepted again, as they are. -/
theorem normalizePolicyPaths_again (values paths : List Str)
    (h : normalizePolicyPaths p values = .ok paths) : normalizePolicyPaths p paths = .ok paths := by
  have heq : paths = values := collectPolicyPaths_eq values [] paths h
  rw [heq] at h ⊢
  exact h

end ParallelForge.Policy
