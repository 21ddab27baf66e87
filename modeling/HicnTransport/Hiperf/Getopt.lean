import Mathlib.Tactic

/-!
# `getopt`

`hiperf` reads its command line with `getopt` as GNU libc implements it by default, with
`POSIXLY_CORRECT` unset. Options and operands may come in any order, and `getopt` moves the
operands after the options, so that `argv[optind]` is the first operand once it returns -1; an
element `--` ends the options. An element `-xyz` is a cluster of option characters. An option
marked by a `:` after it in `optstring` takes an argument: the rest of its cluster, or at the end
of the cluster the next element, whatever that is. A character that is not an option, and an
option whose argument would be past the end of `argv`, make `getopt` return `?`.

A command line that gives each option an element of its own, its argument in the next one, and
then the operands, is read back as it was written.
-/

namespace HicnTransport.Hiperf

/-- Whether `c` is an option character of `optString`; `:` never is. -/
def isOptionChar (optString : List Char) (c : Char) : Bool :=
  c != ':' && optString.contains c

/-- Whether the option `c` takes an argument: a `:` follows it in `optString`. -/
def takesArgument (optString : List Char) (c : Char) : Bool :=
  match optString.dropWhile (· != c) with
  | _ :: ':' :: _ => true
  | _ => false

/-- How a cluster of option characters ends: at its last character, or at an option that takes
its argument from the next element of `argv`. -/
inductive ClusterEnd
  | done
  | needsArgument (c : Char)

/-- The options of a cluster `-xyz`, one `getopt` call after another: `?` for a character that is
no option, and the rest of the cluster as the `optarg` of an option that takes one. -/
def scanCluster (optString : List Char) :
    List Char → List (Char × Option (List Char)) × ClusterEnd
  | [] => ([], .done)
  | c :: cs =>
    if !isOptionChar optString c then
      let r := scanCluster optString cs
      (('?', none) :: r.1, r.2)
    else if takesArgument optString c then
      if cs.isEmpty then ([], .needsArgument c) else ([(c, some cs)], .done)
    else
      let r := scanCluster optString cs
      ((c, none) :: r.1, r.2)

/-- `getopt` called until it returns -1: the values it returns with their `optarg`, and the
operands from `argv[optind]` on. -/
def getopt (optString : List Char) :
    List (List Char) → List (Char × Option (List Char)) × List (List Char)
  | [] => ([], [])
  | a :: rest =>
    if a = ['-', '-'] then ([], rest)
    else
      match a with
      | '-' :: c :: cs =>
        match scanCluster optString (c :: cs), rest with
        | (opts, .done), rest =>
          let r := getopt optString rest
          (opts ++ r.1, r.2)
        | (opts, .needsArgument _), [] => (opts ++ [('?', none)], [])
        | (opts, .needsArgument c'), b :: rest' =>
          let r := getopt optString rest'
          (opts ++ (c', some b) :: r.1, r.2)
      | _ =>
        let r := getopt optString rest
        (r.1, a :: r.2)

/-- A value `getopt` may return for `optString` other than `?`: an option character other than
`-`, with an argument exactly when it takes one. -/
def WellFormedOption (optString : List Char) (o : Char × Option (List Char)) : Prop :=
  o.1 ≠ '-' ∧ isOptionChar optString o.1 = true ∧
    (takesArgument optString o.1 = true ↔ o.2.isSome = true)

/-- An element of `argv` that is no cluster of options and does not end the options. -/
def IsOperand (a : List Char) : Prop := ∀ c cs, a ≠ '-' :: c :: cs

/-- Every option in an element of its own, its argument in the next one. -/
def renderOptions : List (Char × Option (List Char)) → List (List Char)
  | [] => []
  | (c, none) :: opts => ['-', c] :: renderOptions opts
  | (c, some a) :: opts => ['-', c] :: a :: renderOptions opts

theorem getopt_operands (optString : List Char) {operands : List (List Char)}
    (h : ∀ a ∈ operands, IsOperand a) : getopt optString operands = ([], operands) := by
  induction operands with
  | nil => rfl
  | cons a rest ih =>
    have ha := h a (List.mem_cons_self _ _)
    rw [getopt.eq_5 optString a rest ha, if_neg (ha '-' []),
      ih fun b hb => h b (List.mem_cons_of_mem _ hb)]

theorem getopt_renderOptions (optString : List Char) {opts : List (Char × Option (List Char))}
    {operands : List (List Char)} (hopts : ∀ o ∈ opts, WellFormedOption optString o)
    (hoperands : ∀ a ∈ operands, IsOperand a) :
    getopt optString (renderOptions opts ++ operands) = (opts, operands) := by
  induction opts with
  | nil => exact getopt_operands optString hoperands
  | cons o opts ih =>
    obtain ⟨c, arg⟩ := o
    obtain ⟨hdash, hc, ht⟩ := hopts (c, arg) (List.mem_cons_self _ _)
    have ih := ih fun o' ho' => hopts o' (List.mem_cons_of_mem _ ho')
    have hdd : '-' :: [c] ≠ ['-', '-'] := by simpa using hdash
    cases arg with
    | none =>
      have hs : scanCluster optString [c] = ([(c, none)], .done) := by
        simp [scanCluster, hc, show takesArgument optString c = false by simpa using ht]
      rw [renderOptions, List.cons_append, getopt.eq_2 optString c [] _ _ hs, if_neg hdd, ih]
      rfl
    | some a =>
      have hs : scanCluster optString [c] = ([], .needsArgument c) := by
        simp [scanCluster, hc, show takesArgument optString c = true by simpa using ht]
      rw [renderOptions, List.cons_append, List.cons_append, getopt.eq_4 optString c [] _ c a _ hs,
        if_neg hdd, ih]
      rfl

end HicnTransport.Hiperf
