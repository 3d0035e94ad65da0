import CodeAtlas.Proofs.Store.Ends

/-! # Processes that complete

`x.Yields t Q`: on a database with the tables `t`, the process `x` completes, and `Q` holds of what it
yields and of the tables that it leaves. The rules are those of processes that may stop, with nothing that
could hold where they do. -/

namespace CodeAtlas.Store

namespace Process

variable {ε α β : Type} {t : Tables}

def Yields (x : Process ε α) (t : Tables) (Q : α → Tables → Prop) : Prop :=
  ∃ a after, x (on t) = (.ok a, on after) ∧ Q a after

theorem Yields.ends {x : Process ε α} {Q : α → Tables → Prop} (h : x.Yields t Q)
    (E : Tables → Prop) : x.Ends t Q E := Or.inl h

theorem Ends.yields {x : Process ε α} {Q : α → Tables → Prop} (h : x.Ends t Q fun _ => False) :
    x.Yields t Q :=
  h.resolve_right fun ⟨_, _, _, hf⟩ => hf

namespace Yields

variable {x : Process ε α} {Q : α → Tables → Prop}

theorem intro {a : α} {after : Tables} (h : x (on t) = (.ok a, on after)) (hq : Q a after) :
    x.Yields t Q := ⟨a, after, h, hq⟩

theorem pure {a : α} (h : Q a t) : (Pure.pure a : Process ε α).Yields t Q := (Ends.pure h).yields

theorem mono {R : α → Tables → Prop} (h : x.Yields t Q) (hr : ∀ a after, Q a after → R a after) :
    x.Yields t R := ((h.ends _).mono hr fun _ hf => hf).yields

theorem bind {f : α → Process ε β} {R : β → Tables → Prop} (h : x.Yields t Q)
    (hf : ∀ a after, Q a after → (f a).Yields after R) : (x >>= f).Yields t R :=
  ((h.ends _).bind fun a after hq => (hf a after hq).ends _).yields

theorem of_completed (h : x.Yields t Q) {a : α} {db : Database} (hx : x (on t) = (.ok a, db)) :
    ∃ after, db = on after ∧ Q a after := (h.ends fun _ => False).of_completed hx

theorem expect {a : α} (h : Q a t) : (Process.expect (.ok a) : Process ε α).Yields t Q :=
  intro rfl h

section Steps

variable [Coe StoreError ε]

theorem query {f : Database → Except StoreError α} {a : α} (hf : f (on t) = .ok a) (h : Q a t) :
    (Process.query f : Process ε α).Yields t Q :=
  intro (by rw [Process.query, hf]) h

theorem step {f : Database → Except StoreError (α × Database)} {a : α} {after : Tables}
    (hf : f (on t) = .ok (a, on after)) (h : Q a after) :
    (Process.step f : Process ε α).Yields t Q :=
  intro (by rw [Process.step, hf]) h

theorem update {f : Database → Except StoreError Database} {after : Tables}
    {R : Unit → Tables → Prop} (hf : f (on t) = .ok (on after)) (h : R () after) :
    (Process.update f : Process ε Unit).Yields t R :=
  intro (by rw [Process.update, hf]) h

end Steps

/-! ## Loops -/

theorem mapM {f : α → Process ε β} {l : List α} {I : List α → List β → Tables → Prop}
    (step : ∀ front a rest bs now, l = front ++ a :: rest → I front bs now →
      (f a).Yields now fun b after => I (front ++ [a]) (bs ++ [b]) after)
    (start : I [] [] t) : (l.mapM f).Yields t (I l) :=
  (Ends.mapM (fun front a rest bs now hl hi => (step front a rest bs now hl hi).ends _) start).yields

theorem forM {f : α → Process ε Unit} {l : List α} {I : List α → Tables → Prop}
    (step : ∀ front a rest now, l = front ++ a :: rest → I front now →
      (f a).Yields now fun _ after => I (front ++ [a]) after)
    (start : I [] t) : (l.forM f).Yields t fun _ after => I l after :=
  (Ends.forM (fun front a rest now hl hi => (step front a rest now hl hi).ends _) start).yields

end Yields

end Process

end CodeAtlas.Store
