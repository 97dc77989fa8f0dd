import ZLoader.Foundation.Ledger

/-! # Calls that are made again with more memory

A caller that does not know how much memory an answer needs allocates some, makes the call, and
starts over with the size that it is told as long as the memory is too small. What the provider
does is kept as data: how often it asks for more, and whether there is memory each time.
-/

namespace ZLoader

/-- The attempts of a call: the memory that each one gets, with what the call answers in it. All
but the last find it too small, and the last may get no memory at all. -/
inductive Attempts (B A : Type) (tooSmall : A → Bool) where
  | refused
  | again (block : B) (answer : A) (short : tooSmall answer = true) (rest : Attempts B A tooSmall)
  | settled (block : B) (answer : A) (enough : tooSmall answer = false)

/-- What a fetch ends with: the memory with the answer in it, or the answer that failed if there was
memory for one; and all memory that was allocated and freed. -/
structure Fetched (B A : Type) where
  result : Except (Option A) (B × A)
  movements : List (Movement B)

/-- The memory that is kept. -/
def Fetched.kept {B A : Type} (fetched : Fetched B A) : List B :=
  match fetched.result with
  | .ok (block, _) => [block]
  | .error _ => []

namespace Attempts

variable {B A : Type} {tooSmall : A → Bool}

/-- The loop: memory that is too small is freed, as is that of an answer that has failed. -/
def fetch (failed : A → Bool) : Attempts B A tooSmall → Fetched B A
  | refused => ⟨.error none, []⟩
  | again block _ _ rest =>
      let fetched := rest.fetch failed
      { fetched with movements := .grant block :: .release block :: fetched.movements }
  | settled block answer _ =>
      if failed answer then ⟨.error (some answer), [.grant block, .release block]⟩
      else ⟨.ok (block, answer), [.grant block]⟩

variable {failed : A → Bool} {attempts : Attempts B A tooSmall}

/-- An answer that ends the loop with an error has failed. -/
theorem failed_of_fetch {answer : A} (ended : (attempts.fetch failed).result = .error (some answer)) :
    failed answer = true := by
  induction attempts with
  | refused => cases ended
  | again block other short rest ih => exact ih ended
  | settled block other enough =>
      rw [fetch] at ended
      split_ifs at ended with error
      cases ended
      exact error

/-- The loop holds the memory of its answer, and nothing else. -/
theorem fetch_settles [DecidableEq B] (failed : A → Bool) (attempts : Attempts B A tooSmall)
    (held : List B) (rest : List (Movement B)) :
    Settles held ((attempts.fetch failed).movements ++ rest) ↔
      Settles ((attempts.fetch failed).kept ++ held) rest := by
  induction attempts with
  | refused => rfl
  | again block answer short others ih =>
      rw [fetch, List.cons_append, List.cons_append, settles_grant, settles_release_last]
      exact ih
  | settled block answer enough =>
      rw [fetch]
      split_ifs
      · rw [List.cons_append, List.singleton_append, settles_grant, settles_release_last]
        rfl
      · rw [List.singleton_append, settles_grant]
        rfl

end Attempts

end ZLoader
