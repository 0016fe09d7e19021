import NamedSql.Event

/-!
A result together with the events on the way to it. Steps run in order and their
events are listed in order. A step that fails ends the run and keeps the events
reported so far, so a failure never hides what came before it.
-/
namespace NamedSql

structure Traced (α : Type) where
  events : List Event
  result : Except Fault α

namespace Traced

variable {α β γ : Type}

def ok (value : α) : Traced α := ⟨[], .ok value⟩

def fail (fault : Fault) : Traced α := ⟨[], .error fault⟩

def emit (event : Event) : Traced Unit := ⟨[event], .ok ()⟩

def ofResult (result : Except Fault α) : Traced α := ⟨[], result⟩

def andThen (first : Traced α) (next : α → Traced β) : Traced β :=
  match first.result with
  | .error fault => ⟨first.events, .error fault⟩
  | .ok value => ⟨first.events ++ (next value).events, (next value).result⟩

instance : Monad Traced where
  pure := ok
  bind := andThen

theorem ext {left right : Traced α} (events : left.events = right.events)
    (result : left.result = right.result) : left = right := by
  cases left; cases right; simp_all

theorem bind_eq (first : Traced α) (next : α → Traced β) : (first >>= next) = first.andThen next :=
  rfl

@[simp] theorem pure_eq (value : α) : (pure value : Traced α) = ⟨[], .ok value⟩ := rfl

@[simp] theorem mk_ok_bind (events : List Event) (value : α) (next : α → Traced β) :
    (⟨events, .ok value⟩ >>= next : Traced β) =
      ⟨events ++ (next value).events, (next value).result⟩ := rfl

@[simp] theorem mk_error_bind (events : List Event) (fault : Fault) (next : α → Traced β) :
    (⟨events, .error fault⟩ >>= next : Traced β) = ⟨events, .error fault⟩ := rfl

@[simp] theorem result_bind (first : Traced α) (next : α → Traced β) :
    (first >>= next).result = first.result.bind fun value => (next value).result := by
  rcases first with ⟨events, _ | value⟩ <;> rfl

theorem events_bind_ok (first : Traced α) (next : α → Traced β) (value : α)
    (succeeds : first.result = .ok value) :
    (first >>= next).events = first.events ++ (next value).events := by
  rw [bind_eq, andThen, succeeds]

theorem events_bind_error (first : Traced α) (next : α → Traced β) (fault : Fault)
    (fails : first.result = .error fault) : (first >>= next).events = first.events := by
  rw [bind_eq, andThen, fails]

instance : LawfulMonad Traced := LawfulMonad.mk' Traced
  (fun first => by
    rcases first with ⟨events, _ | value⟩
    · rfl
    · exact ext (List.append_nil events) rfl)
  (fun _ _ => rfl)
  (fun first second third => by
    rcases first with ⟨events, _ | value⟩
    · rfl
    · show andThen _ _ = andThen _ _
      simp only [bind_eq, andThen]
      cases (second value).result <;> simp)

end Traced

end NamedSql
