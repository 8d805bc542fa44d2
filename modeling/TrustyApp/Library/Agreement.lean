import TrustyApp.Library.Reactive

/-!
# Two runs that agree

To show that something does not influence a computation, compare two runs that
differ in it: they halt for the same reason, or they return values that are the
same as far as anyone can see.
-/

namespace Agreement

universe u

variable {Error : Type*} {Value Result : Type u}

inductive Agree (Same : Value → Value → Prop) : Except Error Value → Except Error Value → Prop
  | halt (error : Error) : Agree Same (.error error) (.error error)
  | done {first second : Value} : Same first second → Agree Same (.ok first) (.ok second)

variable {Same : Value → Value → Prop} {first second : Except Error Value}

theorem Agree.bind {SameResult : Result → Result → Prop} {next next' : Value → Except Error Result}
    (agree : Agree Same first second)
    (continues : ∀ value value', Same value value' →
      Agree SameResult (next value) (next' value')) :
    Agree SameResult (first >>= next) (second >>= next') := by
  cases agree with
  | halt error => exact .halt error
  | done same => exact continues _ _ same

theorem Agree.bind_same {SameResult : Result → Result → Prop}
    {next next' : Value → Except Error Result} (action : Except Error Value)
    (continues : ∀ value, Agree SameResult (next value) (next' value)) :
    Agree SameResult (action >>= next) (action >>= next') := by
  cases action with
  | error error => exact .halt error
  | ok value => exact continues value

/-- Runs that agree on what can be seen of their values look the same. -/
theorem Agree.map_eq {View : Type u} {view : Value → View}
    (agree : Agree (fun value value' => view value = view value') first second) :
    first.map view = second.map view := by
  cases agree with
  | halt error => rfl
  | done same => exact congrArg Except.ok same

end Agreement
