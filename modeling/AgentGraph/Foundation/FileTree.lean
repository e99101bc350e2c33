import Mathlib.Data.List.Dedup
import Mathlib.Data.List.Infix
import Mathlib.Data.Nat.Notation

/-! # A tree of files with symbolic links

A path is its parts. `get` finds what lies at a path without following a link, `resolve` follows
the links of a path and leaves none, `walk` lists what lies below a directory and enters no link.
A directory that is not readable can be entered but not listed.
-/
set_option autoImplicit false
namespace AgentGraph.FileTree

abbrev Path := List String

variable {B : Type}

inductive Node (B : Type) : Type
  | file (content : B) (readable : Bool)
  | directory (readable : Bool) (names : List String) (child : String → Node B)
  | link (absolute : Bool) (target : Path)
  /-- A pipe, a socket or a device. -/
  | other

namespace Node

def isLink : Node B → Bool
  | link _ _ => true
  | _ => false

def isFile : Node B → Bool
  | file _ _ => true
  | _ => false

def isDirectory : Node B → Bool
  | directory _ _ _ => true
  | _ => false

/-- The entries of a directory beside the parent. -/
def entries (names : List String) : List String := (names.filter fun name => name ≠ "..").dedup

def get : Node B → Path → Option (Node B)
  | node, [] => some node
  | directory _ names child, name :: rest => if (entries names).contains name then (child name).get rest else none
  | _, _ :: _ => none

/-- The parts of a path one after the other; `expand` takes the path behind a link. -/
def follow (root : Node B) (expand : Path → Path → Option Path) : Path → Path → Option Path
  | «at», [] => some «at»
  | «at», name :: rest =>
    if name = ".." then root.follow expand «at».dropLast rest
    else
      match root.get («at» ++ [name]) with
      | none => none
      | some (link absolute target) => expand (if absolute then [] else «at») (target ++ rest)
      | some _ => root.follow expand («at» ++ [name]) rest

/-- The path without links, if no more than `links` of them are met. -/
def resolve (root : Node B) : ℕ → Path → Path → Option Path
  | 0 => root.follow fun _ _ => none
  | links + 1 => root.follow (root.resolve links)

/-- The entries of a directory, and then those of its directories; those that cannot be listed are left out. -/
def walk : Path → Node B → List Path
  | «at», directory true names child =>
    (entries names).map (fun name => «at» ++ [name]) ++ (entries names).flatMap fun name => (child name).walk («at» ++ [name])
  | _, _ => []

/-- The path leads below a directory, through directories that can be listed. -/
inductive Reached : Node B → Path → Prop
  | entry {names : List String} {child : String → Node B} {name : String} (h : name ∈ entries names) :
    Reached (directory true names child) [name]
  | deeper {names : List String} {child : String → Node B} {name : String} {rest : Path} (h : name ∈ entries names)
      (hrest : Reached (child name) rest) : Reached (directory true names child) (name :: rest)

/-- No link is met on the way. -/
def Physical (root : Node B) (path : Path) : Prop := ∃ node, root.get path = some node ∧ node.isLink = false

variable {root node : Node B} {path rest : Path} {name : String} {readable : Bool}

@[simp] theorem get_nil : root.get [] = some root := by
  cases root <;> rfl

theorem get_child {names : List String} {child : String → Node B} (h : name ∈ entries names) :
    (directory readable names child).get (name :: rest) = (child name).get rest := if_pos (List.contains_iff_mem.mpr h)

theorem get_append (root : Node B) (path rest : Path) : root.get (path ++ rest) = (root.get path).bind fun node => node.get rest := by
  induction path generalizing root with
  | nil => simp
  | cons name path ih =>
    cases root with
    | directory readable names child =>
      simp only [List.cons_append, get]
      split
      · exact ih (child name)
      · rfl
    | file | link | other => rfl

/-- What has an entry is a directory. -/
theorem get_snoc (h : root.get (path ++ [name]) = some node) :
    ∃ readable names child, root.get path = some (directory readable names child) ∧ name ∈ entries names ∧ node = child name := by
  rw [get_append] at h
  obtain ⟨parent,hparent,hchild⟩ := Option.bind_eq_some_iff.mp h
  cases parent with
  | directory readable names child =>
    simp only [get] at hchild
    split at hchild
    next hname =>
      cases hchild
      exact ⟨readable,names,child,hparent,List.contains_iff_mem.mp hname,rfl⟩
    · cases hchild
  | file | link | other => cases hchild

theorem physical_nil (h : root.isLink = false) : root.Physical [] := ⟨root,get_nil,h⟩

theorem Physical.dropLast (h : root.Physical path) : root.Physical path.dropLast := by
  induction path using List.reverseRecOn with
  | nil => exact h
  | append_singleton path name ih =>
    obtain ⟨node,hnode,-⟩ := h
    obtain ⟨readable,names,child,hparent,-⟩ := get_snoc hnode
    rw [List.dropLast_concat]
    exact ⟨_,hparent,rfl⟩

theorem follow_physical {expand : Path → Path → Option Path} {result : Path} (hroot : root.isLink = false)
    (hexpand : ∀ «at» rest result, root.Physical «at» → expand «at» rest = some result → root.Physical result) (hpath : root.Physical path)
    (h : root.follow expand path rest = some result) : root.Physical result := by
  induction rest generalizing path with
  | nil =>
    cases h
    exact hpath
  | cons name rest ih =>
    simp only [follow] at h
    split at h
    · exact ih hpath.dropLast h
    · split at h
      · cases h
      next absolute target _ =>
        refine hexpand _ _ result ?_ h
        cases absolute with
        | true => exact physical_nil hroot
        | false => exact hpath
      next node hlink hnode =>
        apply ih _ h
        refine ⟨node,hnode,?_⟩
        cases node with
        | link absolute target => exact absurd rfl (hlink absolute target)
        | file | directory | other => rfl

/-- A resolved path has no links. -/
theorem resolve_physical {links : ℕ} {result : Path} (hroot : root.isLink = false) (hpath : root.Physical path)
    (h : root.resolve links path rest = some result) : root.Physical result := by
  induction links generalizing path rest result with
  | zero => exact follow_physical hroot (fun _ _ _ _ hnone => by cases hnone) hpath h
  | succ links ih => exact follow_physical hroot (fun _ _ _ hat hexpand => ih hat hexpand) hpath h

/-- A path without links is its own resolution. -/
theorem follow_self {expand : Path → Path → Option Path} (h : root.Physical (path ++ rest)) :
    root.follow expand path rest = some (path ++ rest) := by
  induction rest generalizing path with
  | nil => simp [follow]
  | cons name rest ih =>
    have hnext : path ++ name :: rest = (path ++ [name]) ++ rest := by simp
    rw [hnext] at h ⊢
    obtain ⟨node,hnode,hlink⟩ := h
    rw [get_append] at hnode
    obtain ⟨found,hfound,hrest⟩ := Option.bind_eq_some_iff.mp hnode
    obtain ⟨readable,names,child,-,hname,-⟩ := get_snoc hfound
    have hparent : name ≠ ".." := by
      have hfilter := (List.mem_filter.mp (List.mem_dedup.mp hname)).2
      simpa using hfilter
    have hfollow : root.follow expand (path ++ [name]) rest = some ((path ++ [name]) ++ rest) :=
      ih ⟨node,(get_append root (path ++ [name]) rest).trans (by rw [hfound]; exact hrest),hlink⟩
    simp only [follow, if_neg hparent, hfound]
    cases found with
    | link absolute target =>
      -- a link has nothing below it, and is not at the end
      cases rest with
      | nil =>
        cases hrest
        cases hlink
      | cons => cases hrest
    | file | directory | other => exact hfollow

theorem resolve_self {links : ℕ} (h : root.Physical path) : root.resolve links [] path = some path := by
  cases links with
  | zero => exact follow_self h
  | succ links => exact follow_self h

/-- Exactly what is reached is listed. -/
theorem mem_walk : rest ∈ node.walk path ↔ ∃ below, node.Reached below ∧ rest = path ++ below := by
  induction node generalizing path rest with
  | directory readable names child ih =>
    cases readable with
    | false =>
      refine iff_of_false (by simp [walk]) ?_
      rintro ⟨below,hbelow,-⟩
      cases hbelow
    | true =>
      simp only [walk, List.mem_append, List.mem_map, List.mem_flatMap]
      constructor
      · rintro (⟨name,hname,rfl⟩ | ⟨name,hname,hrest⟩)
        · exact ⟨[name],.entry hname,rfl⟩
        · obtain ⟨below,hbelow,rfl⟩ := (ih name).mp hrest
          exact ⟨name :: below,.deeper hname hbelow,by simp⟩
      · rintro ⟨below,hbelow,rfl⟩
        cases hbelow with
        | entry hname => exact .inl ⟨_,hname,rfl⟩
        | deeper hname hrest => exact .inr ⟨_,hname,(ih _).mpr ⟨_,hrest,by simp⟩⟩
  | file | link | other =>
    refine iff_of_false (by simp [walk]) ?_
    rintro ⟨below,hbelow,-⟩
    cases hbelow

theorem Reached.ne_nil (h : node.Reached path) : path ≠ [] := by
  cases h <;> simp

theorem Reached.get_isSome (h : node.Reached path) : (node.get path).isSome := by
  induction h with
  | entry hname =>
    rw [get_child hname, get_nil]
    rfl
  | deeper hname hrest ih => rw [get_child hname, ih]

/-- Nothing is listed twice. -/
theorem walk_nodup : (node.walk path).Nodup := by
  induction node generalizing path with
  | directory readable names child ih =>
    cases readable with
    | false => exact List.nodup_nil
    | true =>
      have hentries : (entries names).Nodup := List.nodup_dedup _
      rw [walk, List.nodup_append']
      refine ⟨?_,?_,?_⟩
      · apply hentries.map
        intro name name' hsame
        simpa using hsame
      · rw [List.nodup_flatMap]
        refine ⟨fun name _ => ih name,?_⟩
        apply List.Pairwise.imp _ hentries
        intro name name' hne other hother hother'
        obtain ⟨below,-,rfl⟩ := mem_walk.mp hother
        obtain ⟨below',-,hsame⟩ := mem_walk.mp hother'
        rw [List.append_assoc, List.append_assoc, List.append_cancel_left_eq] at hsame
        exact hne (List.cons.inj hsame).1
      · -- an entry is one part longer than the path, what lies below an entry is longer
        intro other hentry hother
        obtain ⟨name,-,rfl⟩ := List.mem_map.mp hentry
        obtain ⟨name',-,hbelow⟩ := List.mem_flatMap.mp hother
        obtain ⟨below,hreached,hsame⟩ := mem_walk.mp hbelow
        rw [List.append_assoc, List.append_cancel_left_eq] at hsame
        exact hreached.ne_nil (List.cons.inj hsame).2.symm
  | file | link | other => exact List.nodup_nil

end Node
end AgentGraph.FileTree
