import CodeAtlas.Store.Process

/-! # How processes end

`x.Ends t Q E`: on a database with the tables `t`, the process `x` either completes, and `Q` holds of what
it yields and of the tables that it leaves, or it stops with an error, and `E` holds of the tables that it
leaves then. A step that fails leaves the tables as the steps before it have left them, so `E` has to hold
wherever a step may fail. A loop is dealt with by what holds after each part of its list. -/

namespace CodeAtlas.Store

namespace Process

variable {ε α β : Type} {t : Tables}

/-- The database with the given tables. -/
abbrev on (t : Tables) : Database := ⟨some t⟩

def Ends (x : Process ε α) (t : Tables) (Q : α → Tables → Prop) (E : Tables → Prop) : Prop :=
  (∃ a after, x (on t) = (.ok a, on after) ∧ Q a after) ∨
    ∃ e after, x (on t) = (.error e, on after) ∧ E after

theorem bind_apply (x : Process ε α) (f : α → Process ε β) (db : Database) :
    (x >>= f) db = match x db with
      | (.ok a, after) => f a after
      | (.error e, after) => (.error e, after) := by
  have h : (x >>= f) db = (fun r : Except ε α × Database => ExceptT.bindCont f r.1 r.2) (x db) := rfl
  rw [h]
  obtain ⟨r, after⟩ := x db
  cases r <;> rfl

theorem bind_of_ok {x : Process ε α} {f : α → Process ε β} {db after : Database} {a : α}
    (h : x db = (.ok a, after)) : (x >>= f) db = f a after := by
  rw [bind_apply, h]

theorem bind_of_error {x : Process ε α} {f : α → Process ε β} {db after : Database} {e : ε}
    (h : x db = (.error e, after)) : (x >>= f) db = (.error e, after) := by
  rw [bind_apply, h]

theorem eq_of_isOk (x : Process ε α) (db : Database) (h : (x db).1.isOk = true) :
    ∃ a, x db = (.ok a, (x db).2) := by
  cases hx : x db with
  | mk result after =>
    cases result with
    | error e => simp [hx, Except.isOk, Except.toBool] at h
    | ok a => exact ⟨a, rfl⟩

namespace Ends

variable {x : Process ε α} {Q : α → Tables → Prop} {E : Tables → Prop}

theorem mono {R : α → Tables → Prop} {F : Tables → Prop} (h : x.Ends t Q E)
    (hr : ∀ a after, Q a after → R a after) (hf : ∀ after, E after → F after) : x.Ends t R F := by
  rcases h with ⟨a, after, hx, hq⟩ | ⟨e, after, hx, he⟩
  · exact Or.inl ⟨a, after, hx, hr a after hq⟩
  · exact Or.inr ⟨e, after, hx, hf after he⟩

theorem pure {a : α} (h : Q a t) : (Pure.pure a : Process ε α).Ends t Q E := Or.inl ⟨a, t, rfl, h⟩

theorem bind {f : α → Process ε β} {R : β → Tables → Prop} (h : x.Ends t Q E)
    (hf : ∀ a after, Q a after → (f a).Ends after R E) : (x >>= f).Ends t R E := by
  rcases h with ⟨a, after, hx, hq⟩ | ⟨e, after, hx, he⟩
  · rcases hf a after hq with ⟨b, last, hb, hr⟩ | ⟨e, last, hb, he⟩
    · exact Or.inl ⟨b, last, by rw [bind_of_ok hx, hb], hr⟩
    · exact Or.inr ⟨e, last, by rw [bind_of_ok hx, hb], he⟩
  · exact Or.inr ⟨e, after, bind_of_error hx, he⟩

/-- What holds however a process ends. -/
theorem snd {I : Tables → Prop} (h : x.Ends t (fun _ => I) I) :
    ∃ after, (x (on t)).2 = on after ∧ I after := by
  rcases h with ⟨a, after, hx, hi⟩ | ⟨e, after, hx, hi⟩ <;> exact ⟨after, by rw [hx], hi⟩

/-- What completes yields what it has been seen to yield. -/
theorem of_completed (h : x.Ends t Q E) {a : α} {db : Database} (hx : x (on t) = (.ok a, db)) :
    ∃ after, db = on after ∧ Q a after := by
  rcases h with ⟨a', after, hx', hq⟩ | ⟨e, after, hx', _⟩
  · obtain ⟨ha, hdb⟩ := Prod.mk.inj (hx.symm.trans hx')
    cases ha
    exact ⟨after, hdb, hq⟩
  · cases hx.symm.trans hx'

/-- A process ends in one way only, so all that holds of it holds at once. -/
theorem and {R : α → Tables → Prop} {F : Tables → Prop} (h : x.Ends t Q E) (h' : x.Ends t R F) :
    x.Ends t (fun a after => Q a after ∧ R a after) (fun after => E after ∧ F after) := by
  rcases h with ⟨a, after, hx, hq⟩ | ⟨e, after, hx, he⟩
  · obtain ⟨_, hdb, hr⟩ := h'.of_completed hx
    cases hdb
    exact Or.inl ⟨a, after, hx, hq, hr⟩
  · rcases h' with ⟨a', after', hx', _⟩ | ⟨e', after', hx', hf⟩
    · cases hx.symm.trans hx'
    · obtain ⟨_, hdb⟩ := Prod.mk.inj (hx.symm.trans hx')
      cases hdb
      exact Or.inr ⟨e, after, hx, he, hf⟩

theorem expect {result : Except ε α} (hok : ∀ a, result = .ok a → Q a t) (herror : E t) :
    (Process.expect result).Ends t Q E := by
  cases result with
  | ok a => exact Or.inl ⟨a, t, rfl, hok a rfl⟩
  | error e => exact Or.inr ⟨e, t, rfl, herror⟩

section Steps

variable [Coe StoreError ε]

theorem query {f : Database → Except StoreError α} (hok : ∀ a, f (on t) = .ok a → Q a t)
    (herror : E t) : (Process.query f : Process ε α).Ends t Q E := by
  cases hf : f (on t) with
  | ok a => exact Or.inl ⟨a, t, by rw [Process.query, hf], hok a hf⟩
  | error e => exact Or.inr ⟨(e : ε), t, by rw [Process.query, hf], herror⟩

theorem step {f : Database → Except StoreError (α × Database)}
    (hok : ∀ a db, f (on t) = .ok (a, db) → ∃ after, db = on after ∧ Q a after) (herror : E t) :
    (Process.step f : Process ε α).Ends t Q E := by
  cases hf : f (on t) with
  | ok r =>
    obtain ⟨after, hdb, hq⟩ := hok r.1 r.2 hf
    exact Or.inl ⟨r.1, after, by rw [Process.step, hf, ← hdb], hq⟩
  | error e => exact Or.inr ⟨(e : ε), t, by rw [Process.step, hf], herror⟩

theorem update {f : Database → Except StoreError Database} {R : Unit → Tables → Prop}
    (hok : ∀ db, f (on t) = .ok db → ∃ after, db = on after ∧ R () after)
    (herror : ∀ e, f (on t) = .error e → E t) : (Process.update f : Process ε Unit).Ends t R E := by
  cases hf : f (on t) with
  | ok db =>
    obtain ⟨after, hdb, hr⟩ := hok db hf
    exact Or.inl ⟨(), after, by rw [Process.update, hf, ← hdb], hr⟩
  | error e => exact Or.inr ⟨(e : ε), t, by rw [Process.update, hf], herror e hf⟩

end Steps

/-! ## Loops -/

/-- A loop that keeps `I` as long as it goes on. The invariant relates the part of the list that is done
and its results. -/
theorem mapM {f : α → Process ε β} {l : List α} {I : List α → List β → Tables → Prop}
    (step : ∀ front a rest bs now, l = front ++ a :: rest → I front bs now →
      (f a).Ends now (fun b after => I (front ++ [a]) (bs ++ [b]) after) E)
    (start : I [] [] t) : (l.mapM f).Ends t (I l) E := by
  have h : ∀ todo front bs now, l = front ++ todo → I front bs now →
      (todo.mapM f).Ends now (fun cs after => I l (bs ++ cs) after) E := by
    intro todo
    induction todo with
    | nil =>
      intro front bs now hl hi
      rw [List.mapM_nil]
      refine pure ?_
      rwa [List.append_nil, hl, List.append_nil]
    | cons a todo ih =>
      intro front bs now hl hi
      rw [List.mapM_cons]
      refine (step front a todo bs now hl hi).bind fun b after hb => ?_
      refine (ih (front ++ [a]) (bs ++ [b]) after (by simp [hl]) hb).bind fun cs last hcs => ?_
      exact pure (by simpa using hcs)
  exact h l [] [] t rfl start

theorem forM {f : α → Process ε Unit} {l : List α} {I : List α → Tables → Prop}
    (step : ∀ front a rest now, l = front ++ a :: rest → I front now →
      (f a).Ends now (fun _ after => I (front ++ [a]) after) E)
    (start : I [] t) : (l.forM f).Ends t (fun _ after => I l after) E := by
  have h : ∀ todo front now, l = front ++ todo → I front now →
      (todo.forM f).Ends now (fun _ after => I l after) E := by
    intro todo
    induction todo with
    | nil =>
      intro front now hl hi
      rw [List.append_nil] at hl
      exact pure (hl ▸ hi)
    | cons a todo ih =>
      intro front now hl hi
      change (f a >>= fun _ => todo.forM f).Ends now _ _
      refine (step front a todo now hl hi).bind fun _ after hb => ?_
      exact ih (front ++ [a]) after (by simp [hl]) hb
  exact h l [] t rfl start

end Ends

end Process

end CodeAtlas.Store
