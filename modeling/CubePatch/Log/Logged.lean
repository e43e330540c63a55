import CubePatch.Log.Event

/-!
# Computations with a log

A computation tells events on its way and ends with a value or an error. Events told before an error
stay told. What a computation answers does not depend on what it tells: the outcome of two steps in
a row is the outcome of the first, followed by that of the second.
-/
namespace CubePatch

structure Logged (ε α : Type) where
  events : List Event
  outcome : Except ε α

namespace Logged

def ofExcept (outcome : Except ε α) : Logged ε α :=
  ⟨[], outcome⟩

def tell (event : Event) : Logged ε Unit :=
  ⟨[event], .ok ()⟩

def tellAll (events : List Event) : Logged ε Unit :=
  ⟨events, .ok ()⟩

/-- Tells an event if there is reason to. -/
def tellIf (reason : Prop) [Decidable reason] (event : Event) : Logged ε Unit :=
  tellAll (if reason then [event] else [])

def fail (fault : ε) : Logged ε α :=
  ⟨[], .error fault⟩

/-- Runs one step and then, if it did not fail, the next one on its value. -/
def andThen (first : Logged ε α) (next : α → Logged ε β) : Logged ε β :=
  match first.outcome with
  | .error fault => ⟨first.events, .error fault⟩
  | .ok value => ⟨first.events ++ (next value).events, (next value).outcome⟩

instance : Monad (Logged ε) where
  pure value := ⟨[], .ok value⟩
  bind := andThen

def mapError (convert : ε → δ) (step : Logged ε α) : Logged δ α :=
  ⟨step.events, step.outcome.mapError convert⟩

/-- Runs an edit of an image and gives the image after it. -/
def ofEdit (result : EStateM.Result ε σ α) : Logged ε (α × σ) :=
  match result with
  | .ok value state => ⟨[], .ok (value, state)⟩
  | .error fault _ => ⟨[], .error fault⟩

@[simp] theorem outcome_pure (value : α) : (pure value : Logged ε α).outcome = .ok value := rfl

@[simp] theorem outcome_ofExcept (outcome : Except ε α) :
    (ofExcept outcome).outcome = outcome := rfl

@[simp] theorem outcome_tell (event : Event) : (tell event : Logged ε Unit).outcome = .ok () := rfl

@[simp] theorem outcome_tellAll (events : List Event) :
    (tellAll events : Logged ε Unit).outcome = .ok () := rfl

@[simp] theorem outcome_tellIf (reason : Prop) [Decidable reason] (event : Event) :
    (tellIf reason event : Logged ε Unit).outcome = .ok () := rfl

@[simp] theorem outcome_fail (fault : ε) : (fail fault : Logged ε α).outcome = .error fault := rfl

@[simp] theorem outcome_mapError (convert : ε → δ) (step : Logged ε α) :
    (mapError convert step).outcome = step.outcome.mapError convert := rfl

@[simp] theorem outcome_bind (first : Logged ε α) (next : α → Logged ε β) :
    (first >>= next).outcome = first.outcome.bind fun value => (next value).outcome := by
  show (andThen first next).outcome = _
  unfold andThen
  split <;> simp_all [Except.bind]

end Logged

end CubePatch
