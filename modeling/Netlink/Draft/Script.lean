import Netlink.Draft.Basic

/-! # Building by steps

A message can be described by the steps that build it. A step may fail, and the steps after it still
apply to what is there. The nests that have been opened are numbered in order; a step closes one by
its number, or else the latest that is still open. A number stays good after its nest was closed. -/

namespace Netlink.Draft

/-! ## Trees -/

inductive Tree.Step where
  | append (a : Attribute)
  | openNest (type : UInt16)
  /-- Closes the nest of a number, or the latest open one. -/
  | close (number : Option Nat)
  deriving DecidableEq, Repr

inductive Product where
  | nothing
  /-- The number of the nest that was opened. -/
  | opened (number : Nat)
  /-- The length of the nest that was closed. -/
  | closed (length : Nat)
  deriving DecidableEq, Repr

/-- Nests that have been opened, in order, each with whether it has been closed. -/
abbrev Nests (α : Type) := List (α × Bool)

namespace Nests

variable {α : Type}

/-- The number of the latest nest that is still open. -/
def latestOpen? (ns : Nests α) : Option Nat :=
  (ns.zipIdx.findRev? fun (nest, _) => !nest.2).map (·.2)

/-- The nest that a closing step means, and the nests with it closed. -/
def take? (ns : Nests α) (number : Option Nat) : Option (α × Nests α) := do
  let n ← number <|> ns.latestOpen?
  let (mark, _) ← ns[n]?
  return (mark, ns.set n (mark, true))

end Nests

structure Tree.Work where
  tree : Tree
  nests : Nests Tree.Mark
  deriving Repr

namespace Tree.Work

def noNest : Error := .invalidAttribute (.stated "no open nest")

def step (w : Work) : Step → Except Error Product × Work
  | .append a =>
    match w.tree.append a with
    | .ok tree => (.ok .nothing, { w with tree })
    | .error e => (.error e, w)
  | .openNest type =>
    match w.tree.openNest type with
    | .ok (mark, tree) => (.ok (.opened w.nests.length), ⟨tree, w.nests ++ [(mark, false)]⟩)
    | .error e => (.error e, w)
  | .close number =>
    match w.nests.take? number with
    | none => (.error noNest, w)
    | some (mark, nests) =>
      match w.tree.closeNest mark with
      | .ok (length, tree) => (.ok (.closed length), ⟨tree, nests⟩)
      | .error e => (.error e, { w with nests })

/-- Takes steps in order, up to the first that fails. -/
def build (w : Work) : List Step → Except Error Work
  | [] => .ok w
  | s :: ss =>
    match w.step s with
    | (.ok _, w') => w'.build ss
    | (.error e, _) => .error e

end Tree.Work

/-! ## Messages -/

inductive Step where
  | appendRaw (data : Bytes)
  | append (a : Attribute)
  /-- Builds a tree and appends it; the first step of it that fails is the failure of this one. -/
  | appendTree (type : UInt16) (capacity : Nat) (steps : List Tree.Step)
  | openNest (type : UInt16)
  | openCompat (type : UInt16) (data : Bytes)
  /-- Closes the nest of a number, or the latest open one. -/
  | close (number : Option Nat)
  | setFlags (flags : UInt16)
  | setSeq (seq : UInt32)
  | setPid (pid : UInt32)
  /-- Fails and changes nothing. -/
  | refuse (reason : String)
  deriving Repr

/-- A nest that has been opened, of either kind. -/
inductive AnyMark where
  | plain (mark : Mark)
  | compat (mark : CompatMark)
  deriving DecidableEq, Repr

structure Work where
  draft : Draft
  nests : Nests AnyMark
  deriving Repr

namespace Work

def start (draft : Draft) : Work := ⟨draft, []⟩

/-- The draft that an appending step leaves. -/
def settle (w : Work) (outcome : Except Error Unit) (draft : Draft) : Except Error Product × Work :=
  (outcome.map fun () => .nothing, { w with draft })

/-- The draft that an opening step leaves, and the nest if it opened one. -/
def settleOpen (w : Work) (outcome : Except Error AnyMark) (draft : Draft) :
    Except Error Product × Work :=
  match outcome with
  | .ok mark => (.ok (.opened w.nests.length), ⟨draft, w.nests ++ [(mark, false)]⟩)
  | .error e => (.error e, { w with draft })

def step (w : Work) : Step → Except Error Product × Work
  | .appendRaw data =>
    let (outcome, draft) := w.draft.appendRaw data
    w.settle outcome draft
  | .append a =>
    let (outcome, draft) := w.draft.append a
    w.settle outcome draft
  | .appendTree type capacity steps =>
    match Tree.Work.build ⟨Tree.new type capacity, []⟩ steps with
    | .error e => (.error e, w)
    | .ok work =>
      let (outcome, draft) := w.draft.appendTree work.tree
      w.settle outcome draft
  | .openNest type =>
    let (outcome, draft) := w.draft.openNest type
    w.settleOpen (outcome.map .plain) draft
  | .openCompat type data =>
    let (outcome, draft) := w.draft.openCompat type data
    w.settleOpen (outcome.map .compat) draft
  | .close number =>
    match w.nests.take? number with
    | none => (.error Tree.Work.noNest, w)
    | some (.plain mark, nests) =>
      let (outcome, draft) := w.draft.closeNest mark
      (outcome.map .closed, ⟨draft, nests⟩)
    | some (.compat mark, nests) =>
      let (outcome, draft) := w.draft.closeCompat mark
      (outcome.map fun _ => .nothing, ⟨draft, nests⟩)
  | .setFlags flags => (.ok .nothing, { w with draft := w.draft.setFlags flags })
  | .setSeq seq => (.ok .nothing, { w with draft := w.draft.setSeq seq })
  | .setPid pid => (.ok .nothing, { w with draft := w.draft.setPid pid })
  | .refuse reason => (.error (.invalidMessage (.stated reason)), w)

/-- Takes steps in order, whether they fail or not. -/
def run (w : Work) (steps : List Step) : Work := steps.foldl (fun w s => (w.step s).2) w

def build (w : Work) : List Step → Except Error Work
  | [] => .ok w
  | s :: ss =>
    match w.step s with
    | (.ok _, w') => w'.build ss
    | (.error e, _) => .error e

end Work

/-- The draft after steps of which the failing ones are passed over. -/
def built (d : Draft) (steps : List Step) : Draft := ((Work.start d).run steps).draft

end Netlink.Draft
