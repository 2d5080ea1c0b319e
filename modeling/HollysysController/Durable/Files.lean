import HollysysController.Durable.During
import HollysysController.Durable.Table
import Mathlib.Data.List.Infix

/-! # Files

A file system as a table of what `lstat` finds at each path. A symbolic link is kept with the
file it leads to; that two paths name one file is not seen here, so the programs that write
are those that look for links first. -/

namespace Durable.Files

/-- The names from the root. -/
abbrev Path := List String

structure File where
  bytes : List UInt8
  mode : Nat
  uid : Nat
  deriving DecidableEq, Repr

inductive Node where
  | file (f : File)
  | dir
  | link (found : Option File)
  deriving DecidableEq, Repr

abbrev Disk := Table Path Node

namespace Disk

/-- The regular file at a path, through a link. -/
def found (d : Disk) (p : Path) : Option File :=
  match d p with
  | some (.file f) => some f
  | some (.link f) => f
  | _ => none

def isLink (d : Disk) (p : Path) : Bool := d p matches some (.link _)

def erase (d : Disk) (p : Path) : Disk := Function.update d p none

theorem erase_ne (d : Disk) {p q : Path} (h : q ≠ p) : d.erase p q = d q :=
  Function.update_of_ne h _ _

/-- Change the file at a path, when there is one. -/
def alter (d : Disk) (p : Path) (f : File → File) : Disk :=
  d.modify p fun
    | .file x => .file (f x)
    | .dir => .dir
    | .link x => .link (x.map f)

theorem alter_ne (d : Disk) {p q : Path} (f : File → File) (h : q ≠ p) : d.alter p f q = d q :=
  Table.modify_ne d _ h

theorem alter_file {d : Disk} {p : Path} {x : File} (h : d p = some (.file x))
    (f : File → File) : d.alter p f p = some (.file (f x)) := by
  rw [alter, Table.modify_self, h]
  rfl

/-- The directories of a path that is not there yet. -/
def makeDirs (d : Disk) (p : Path) : Disk := fun q =>
  if q <+: p ∧ d q = none then some .dir else d q

theorem makeDirs_ne (d : Disk) {p q : Path} (h : ¬ q <+: p) : d.makeDirs p q = d q :=
  if_neg fun hq => h hq.1

end Disk

/-! ## Operations -/

inductive Op where
  | isSymlink (p : Path)
  | isFile (p : Path)
  | isDir (p : Path)
  | present (p : Path)
  | stat (p : Path)
  | readBytes (p : Path)
  | makeDirs (p : Path)
  | chmod (p : Path) (mode : Nat)
  /-- A new file of the process, under a name that `mkstemp` drew. -/
  | makeTemp (p : Path)
  | append (p : Path) (bytes : List UInt8)
  | sync (p : Path)
  | replace (source target : Path)
  | unlink (p : Path)
  deriving DecidableEq, Repr

@[reducible] def Op.Ret : Op → Type
  | isSymlink _ | isFile _ | isDir _ | present _ => Bool
  -- none for what is no regular file
  | stat _ => Option File
  | readBytes _ => List UInt8
  | _ => Unit

variable {ε : Type}

/-- The effect of an operation for a process of user `euid`; `fail` is its `OSError`. -/
def exec (euid : Nat) (fail : ε) : (o : Op) → Disk → Except ε o.Ret × Disk
  | .isSymlink p, d => (.ok (d.isLink p), d)
  | .isFile p, d => (.ok (d.found p).isSome, d)
  | .isDir p, d => (.ok (d p == some .dir), d)
  | .present p, d => (.ok (d p == some .dir || (d.found p).isSome), d)
  | .stat p, d =>
    match d p with
    | some .dir => (.ok none, d)
    | _ =>
      match d.found p with
      | some f => (.ok (some f), d)
      | none => (.error fail, d)
  | .readBytes p, d =>
    match d.found p with
    | some f => (.ok f.bytes, d)
    | none => (.error fail, d)
  | .makeDirs p, d =>
    if p.inits.all fun q => d q == none || d q == some .dir then (.ok (), d.makeDirs p)
    else (.error fail, d)
  | .chmod p mode, d =>
    match d p with
    | none | some (.link none) => (.error fail, d)
    | _ => (.ok (), d.alter p fun f => { f with mode })
  | .makeTemp p, d =>
    if d p = none ∧ d p.dropLast = some .dir then
      (.ok (), d.put p (.file { bytes := [], mode := 0o600, uid := euid }))
    else (.error fail, d)
  | .append p bytes, d => (.ok (), d.alter p fun f => { f with bytes := f.bytes ++ bytes })
  | .sync _, d => (.ok (), d)
  | .replace source target, d =>
    match d source with
    | none => (.error fail, d)
    | some n =>
      if d target = some .dir then (.error fail, d)
      else (.ok (), (d.erase source).put target n)
  | .unlink p, d =>
    match d p with
    | none | some .dir => (.error fail, d)
    | _ => (.ok (), d.erase p)

def machine (euid : Nat) (fail : ε) : Machine Op Op.Ret ε Disk where
  exec := exec euid fail

/-! ## What an operation may change -/

/-- The operation can change what is at the path. -/
def Op.Touches (q : Path) : Op → Prop
  | makeDirs p => q <+: p
  | chmod p _ | makeTemp p | append p _ | unlink p => q = p
  | replace source target => q = source ∨ q = target
  | _ => False

theorem exec_other {euid : Nat} {fail : ε} {o : Op} {q : Path} (h : ¬ o.Touches q) (d : Disk) :
    (exec euid fail o d).2 q = d q := by
  cases o with
  | isSymlink p | isFile p | isDir p | present p | sync p => rfl
  | stat p =>
    simp only [exec]
    split
    · rfl
    · split <;> rfl
  | readBytes p =>
    simp only [exec]
    split <;> rfl
  | makeDirs p =>
    simp only [exec]
    split
    · exact d.makeDirs_ne h
    · rfl
  | chmod p mode =>
    simp only [exec]
    split
    · rfl
    · rfl
    · exact d.alter_ne _ h
  | makeTemp p =>
    simp only [exec]
    split
    · exact Table.put_ne d _ h
    · rfl
  | append p bytes => exact d.alter_ne _ h
  | replace source target =>
    rw [Op.Touches, not_or] at h
    simp only [exec]
    split
    · rfl
    · split
      · rfl
      · exact (Table.put_ne _ _ h.2).trans (d.erase_ne h.1)
  | unlink p =>
    simp only [exec]
    split
    · rfl
    · rfl
    · exact d.erase_ne h

/-! ## What an operation sees -/

/-- The operation looks at the path and changes nothing. -/
def Op.LooksAt (q : Path) : Op → Prop
  | isSymlink p | isFile p | isDir p | present p | stat p | readBytes p => p = q
  | _ => False

theorem found_congr {d d' : Disk} {q : Path} (h : d q = d' q) : d.found q = d'.found q := by
  rw [Disk.found, Disk.found, h]

/-- A look at a path changes nothing, and its answer depends on the path alone. -/
theorem exec_looks {euid : Nat} {fail : ε} {o : Op} {q : Path} (h : o.LooksAt q) {d d' : Disk}
    (hd : d q = d' q) : (exec euid fail o d).2 = d ∧
      (exec euid fail o d).1 = (exec euid fail o d').1 := by
  have hfound := found_congr hd
  cases o with
  | isSymlink p | isFile p | isDir p | present p =>
    obtain rfl : p = q := h
    exact ⟨rfl, by simp only [exec, Disk.isLink, hd, hfound]⟩
  | stat p =>
    obtain rfl : p = q := h
    simp only [exec, ← hd, ← hfound]
    split
    · exact ⟨rfl, rfl⟩
    · split <;> exact ⟨rfl, rfl⟩
  | readBytes p =>
    obtain rfl : p = q := h
    simp only [exec, ← hfound]
    split <;> exact ⟨rfl, rfl⟩
  | _ => exact h.elim

/-- Where the others leave the paths alone that a program looks at, and nothing fails, the
program ends as it does undisturbed on any disk that has the same there. -/
theorem viewed {α : Type} {euid : Nat} {fail : ε} {E : Setting Op ε Disk} {qs : List Path}
    (hothers : ∀ d d', E.others d d' → ∀ q ∈ qs, d' q = d q)
    (hfaults : ∀ d o f, E.faults d o f → f = .none) {p : Prog Op Op.Ret ε α}
    (hp : p.Uses fun o => ∃ q ∈ qs, o.LooksAt q) {d d' view : Disk} {r : Outcome ε α}
    (h : Runs (machine euid fail) E p d r d') (hview : ∀ q ∈ qs, d q = view q) :
    (machine euid fail).eval p view = (r, view) := by
  induction h with
  | pure | raise => rfl
  | @answered o k d d₁ f a d₂ d' r ho hf hm _ ih =>
    obtain rfl := hfaults _ _ _ hf
    obtain ⟨q, hq, hlooks⟩ := hp.1
    have hsame : ∀ q ∈ qs, d₁ q = view q := fun q hq =>
      (hothers _ _ ho q hq).trans (hview q hq)
    obtain ⟨hkept, hanswer⟩ := @exec_looks ε euid fail o q hlooks d₁ view (hsame q hq)
    have hview₂ := (@exec_looks ε euid fail o q hlooks view d₁ (hsame q hq).symm).1
    obtain ⟨rfl, hd₂⟩ : (exec euid fail o d₁).1 = a ∧ (exec euid fail o d₁).2 = d₂ := by
      simpa [Machine.meet, machine] using hm
    obtain rfl : d₁ = d₂ := hkept.symm.trans hd₂
    have hrest := ih (hp.2 _) hsame
    rw [Machine.eval]
    show (machine euid fail).eval (k (exec euid fail o view).1) (exec euid fail o view).2 = _
    rw [hview₂, ← hanswer]
    exact hrest
  | stopped ho hf hm =>
    obtain rfl := hfaults _ _ _ hf
    simp [Machine.meet] at hm

end Durable.Files
