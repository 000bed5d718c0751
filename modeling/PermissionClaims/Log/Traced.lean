import PermissionClaims.Log.Notice

/-!
# Traced answers

An answer together with the notices given on the way to it, in the order in which they were given.
-/

namespace PermissionClaims.Log

structure Traced (α : Type) where
  notices : List Notice
  value : α

namespace Traced

variable {α β : Type}

instance : Monad Traced where
  pure a := ⟨[], a⟩
  bind x f := ⟨x.notices ++ (f x.value).notices, (f x.value).value⟩

def note (n : Notice) : Traced Unit :=
  ⟨[n], ()⟩

@[simp] theorem notices_pure (a : α) : (pure a : Traced α).notices = [] := rfl

@[simp] theorem value_pure (a : α) : (pure a : Traced α).value = a := rfl

@[simp] theorem notices_bind (x : Traced α) (f : α → Traced β) :
    (x >>= f).notices = x.notices ++ (f x.value).notices := rfl

@[simp] theorem value_bind (x : Traced α) (f : α → Traced β) :
    (x >>= f).value = (f x.value).value := rfl

instance : LawfulMonad Traced :=
  LawfulMonad.mk' Traced
    (fun x => congrArg (Traced.mk · x.value) (List.append_nil x.notices))
    (fun _ _ => rfl)
    (fun x f g => congrArg (Traced.mk · _) (List.append_assoc x.notices _ _))

@[simp] theorem notices_map (f : α → β) (x : Traced α) : (f <$> x).notices = x.notices :=
  List.append_nil x.notices

@[simp] theorem value_map (f : α → β) (x : Traced α) : (f <$> x).value = f x.value := rfl

@[simp] theorem notices_note (n : Notice) : (note n).notices = [n] := rfl

end Traced

end PermissionClaims.Log
