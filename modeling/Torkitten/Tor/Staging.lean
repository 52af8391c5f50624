import Torkitten.Tor.Recovery

/-!
# Staging an identity

Staging works in a directory of its own. When it succeeds, that directory holds an identity whose
address has never been used before; when it fails, the directory is removed again.
-/

namespace Torkitten

open Proc

/-- Everything but one stage and the list of used addresses. -/
def World.outside (n : ℕ) (w : World) : World :=
  { w with dirs := Function.update w.dirs (.stage n) none, stages := w.stages.erase n, used := [] }

namespace Tor

theorem erase_insert_self {α : Type} [DecidableEq α] {β : α → Type} (a : α) (b : β a) (s : AList β) :
    (s.insert a b).erase a = s.erase a := by
  apply AList.ext
  change List.kerase a (s.insert a b).entries = List.kerase a s.entries
  simp [AList.insert]

theorem erase_of_notMem {α : Type} [DecidableEq α] {β : α → Type} {a : α} {s : AList β}
    (h : a ∉ s) : s.erase a = s := by
  apply AList.ext
  exact List.kerase_of_notMem_keys h

theorem ignores_outside (n : ℕ) : Ignores (World.outside n) (fun p => p = .stage n) where
  dir := by
    rintro w p d rfl
    simp [World.outside, World.setDir]
  erased := by
    intro w m hm
    cases hm
    have hnot : n ∉ w.stages.erase n := by simp [AList.mem_erase]
    simp only [World.outside]
    rw [erase_of_notMem hnot]
  inserted := by
    intro w m torrc hm
    cases hm
    simp [World.outside, erase_insert_self]

variable {E : Event → Prop} {C : World → Prop} {w : World} {n : ℕ}

theorem keeps_outside_generateIdentity :
    Keeps E (MayCrash E) (World.outside n) (generateIdentity n) := by
  have hgenerated : ∀ w id, (generatedAt n id w).outside n = w.outside n := by
    intro w id
    simp [generatedAt, World.outside, World.setDir]
  refine keeps_of_wp fun w => ?_
  apply wp_ask
  intro e he
  split
  next hc => exact ⟨⟨e, he, hc⟩, rfl⟩
  next =>
    split
    next => exact rfl
    next =>
      split
      next =>
        split
        · exact hgenerated w _
        · exact rfl
      next => exact hgenerated w _

theorem keeps_outside_fillStage (p : Paths) (devices : List Device) :
    Keeps E (MayCrash E) (World.outside n) (fillStage p n devices) := by
  have h := ignores_outside n
  unfold fillStage
  refine keeps_bind (keeps_ensure h rfl _) fun _ => ?_
  refine keeps_bind (keeps_reconcile h rfl _ _) fun _ => ?_
  split
  next => exact keeps_fail _
  next config =>
    refine keeps_bind (keeps_writeCall ?_) fun _ => ?_
    · rintro w _ ⟨⟩
      exact h.inserted w n _ rfl
    refine keeps_bind keeps_validate fun _ => ?_
    refine keeps_bind (keeps_serviceCall fun _ => rfl) fun _ => ?_
    refine keeps_bind (keeps_attempt keeps_outside_generateIdentity) fun _ => ?_
    refine keeps_bind keeps_get fun _ => ?_
    split
    · exact keeps_pure _
    · exact keeps_fail _

theorem wp_generateIdentity {Q : Except GoError Unit → World → Prop}
    (hcrash : MayCrash E → C w) (hfail : ∀ err, Q (.error err) w)
    (happlied : ∀ id err, Q (.error err) (generatedAt n id w))
    (hok : ∀ id, id ∉ w.used → serviceIDRE id = true → Q (.ok ()) (generatedAt n id w)) :
    wp E (generateIdentity n) Q C w := by
  apply wp_ask
  intro e he
  split
  next hc => exact hcrash ⟨e, he, hc⟩
  next =>
    split
    next => exact hfail _
    next hfresh =>
      simp only [Bool.or_eq_true, decide_eq_true_eq, Bool.not_eq_true', not_or, Bool.not_eq_false]
        at hfresh
      split
      next =>
        split
        · exact happlied _ _
        · exact hfail _
      next => exact hok _ hfresh.1 hfresh.2

/-- A filled stage holds a new identity. -/
theorem wp_fillStage {Q : Except GoError IdentityStage → World → Prop} (p : Paths)
    (devices : List Device) (hempty : w.dirs (.stage n) = none)
    (hok : ∀ id w', id ∉ w.used → w'.used = id :: w.used → Holds w' (.stage n) id →
      (Keyed (records devices none) → ∃ a, w'.authAt (.stage n) = some a ∧
        Exact (records devices none) a) →
      Q (.ok { root := n, serviceID := id }) w')
    (herr : ∀ err w', w.used ⊆ w'.used → Q (.error err) w')
    (hcrash : ∀ w', MayCrash E → w.used ⊆ w'.used → C w') :
    wp E (fillStage p n devices) Q C w := by
  -- until Tor runs, the list of used addresses stays
  have herr' : ∀ err w', w'.used = w.used → Q (.error err) w' :=
    fun err w' h => herr err w' (h ▸ List.Subset.refl _)
  have hcrash' : ∀ w', MayCrash E → w'.used = w.used → C w' :=
    fun w' hc h => hcrash w' hc (h ▸ List.Subset.refl _)
  unfold fillStage
  apply wp_bind
  apply wp_ensure
  · exact fun _ err => herr' err w rfl
  · rintro w' (rfl | rfl | rfl)
    all_goals exact ⟨fun hc => hcrash' _ hc rfl, fun _ err => herr' err _ rfl⟩
  have hauth : (ensuredAuth (.stage n) w).authAt (.stage n) = some ∅ := by
    simp [ensuredAuth, World.authAt, hempty, HsDir.empty]
  apply wp_bind
  refine wp_mono (wp_reconcile devices none hauth plainFiles_empty) ?_ ?_
  rotate_left
  · rintro w' ⟨hc, a, _, rfl⟩
    exact hcrash' _ hc rfl
  rintro r w₁ hrec
  have hexact := hrec.exact
  obtain ⟨a, hnodirs, rfl⟩ := hrec.reauthorized
  cases r with
  | error err => exact herr' err _ rfl
  | ok _ =>
    rw [either_ok]
    have hauth₁ := World.authAt_setAuth (b := a) hauth
    split
    next err _ => exact wp_fail (herr' err _ rfl)
    next config _ =>
      -- the configuration, its validation and the start of Tor
      let f : World → Option AuthDir × List String := fun w => (w.authAt (.stage n), w.used)
      have hconfig : Keeps E (MayCrash E) f
          (writeStageConfig n (config ++ [("DisableNetwork", "1")])) := by
        apply keeps_writeCall
        rintro w _ ⟨⟩
        rfl
      refine hconfig.bind (fun err w' hw' => herr' err w' (congrArg Prod.snd hw'))
        (fun hc w' hw' => hcrash' w' hc (congrArg Prod.snd hw')) fun _ w₂ hw₂ => ?_
      refine keeps_validate.bind (f := f) (fun err w' hw' => herr' err w' ?_)
        (fun hc w' hw' => hcrash' w' hc ?_) fun _ w₃ hw₃ => ?_
      · exact congrArg Prod.snd (hw'.trans hw₂)
      · exact congrArg Prod.snd (hw'.trans hw₂)
      refine (keeps_serviceCall fun _ => rfl).bind (f := f) (fun err w' hw' => herr' err w' ?_)
        (fun hc w' hw' => hcrash' w' hc ?_) fun _ w₄ hw₄ => ?_
      · exact congrArg Prod.snd (hw'.trans (hw₃.trans hw₂))
      · exact congrArg Prod.snd (hw'.trans (hw₃.trans hw₂))
      have hsame := hw₄.trans (hw₃.trans hw₂)
      have hused : w₄.used = w.used := congrArg Prod.snd hsame
      have hauth₄ : w₄.authAt (.stage n) = some a := (congrArg Prod.fst hsame).trans hauth₁
      have hgrows : ∀ id, w.used ⊆ (generatedAt n id w₄).used := by
        intro id u hu
        exact List.mem_cons_of_mem _ (hused ▸ hu)
      -- Tor generates the identity
      apply wp_bind
      apply wp_attempt
      apply wp_generateIdentity
      · exact fun hc => hcrash' _ hc hused
      · exact fun err => wp_bind (wp_get (wp_fail (herr' _ _ hused)))
      · exact fun id err => wp_bind (wp_get (wp_fail (herr _ _ (hgrows id))))
      · intro id hfresh hid
        obtain ⟨d, hd, hda⟩ := Option.bind_eq_some_iff.mp hauth₄
        have hdir : (generatedAt n id w₄).dirs (.stage n) =
            some { d with hostname := some (hostnameText id), keys := some id } := by
          simp [generatedAt, hd]
        have hread := readServiceID_hostnameText (d := { d with
          hostname := some (hostnameText id), keys := some id }) hid rfl
        apply wp_bind
        apply wp_get
        simp only [either_ok, hdir, hread]
        refine wp_pure (hok id _ (hused ▸ hfresh) ?_ ⟨_, hdir, ⟨hread, rfl⟩, a, hda, hnodirs⟩
          fun hkeyed => ?_)
        · rw [← hused]
          rfl
        · -- the files are those that the reconciliation has left
          obtain ⟨a', ha', hexact'⟩ := hexact hkeyed rfl
          rw [hauth₁] at ha'
          cases ha'
          exact ⟨a, by rw [World.authAt, hdir]; exact hda, hexact'⟩

/-- What a staging has done so far: it has changed one stage that did not exist before, and
perhaps used an address. -/
structure Staged (n : ℕ) (w w' : World) : Prop where
  fresh : n ∉ w.stages
  outside : w'.outside n = w.outside n
  used : w.used ⊆ w'.used

theorem wp_stageIdentity {Q : Except GoError IdentityStage → World → Prop} (p : Paths)
    (devices : List Device) (hnone : ∀ err, Q (.error err) w)
    (hok : ∀ stage w', Staged stage.root w w' → stage.serviceID ∉ w.used →
      stage.serviceID ∈ w'.used → Holds w' (.stage stage.root) stage.serviceID →
      (Keyed (records devices none) → ∃ a, w'.authAt (.stage stage.root) = some a ∧
        Exact (records devices none) a) → Q (.ok stage) w')
    (herr : ∀ n err w', Staged n w w' →
      (¬ DiskMayFail (undone E) → w'.dirs (.stage n) = none ∧ n ∉ w'.stages) → Q (.error err) w')
    (hcrash : ∀ w', MayCrash E → (w' = w ∨ ∃ n, Staged n w w') → C w') :
    wp E (stageIdentity p devices) Q C w := by
  unfold stageIdentity
  apply wp_bind
  apply wp_ask
  intro e he
  split
  next hc => exact hcrash _ ⟨e, he, hc⟩ (.inl rfl)
  next =>
    split
    next => exact hnone _
    next hnew =>
      simp only [Bool.or_eq_true, decide_eq_true_eq, not_or] at hnew
      -- the new stage is empty
      generalize hn : e.stage = n at hnew ⊢
      let w₁ : World := { w.setDir (.stage n) none with stages := w.stages.insert n none }
      have hout₁ : w₁.outside n = w.outside n := by
        have h := ignores_outside n
        exact (h.inserted _ n none rfl).trans (h.dir w _ none rfl)
      have hstaged : ∀ w' : World, w'.outside n = w₁.outside n → w.used ⊆ w'.used → Staged n w w' :=
        fun w' hout hused => ⟨hnew.2, hout.trans hout₁, hused⟩
      change wp E _ Q C w₁
      apply wp_bind
      apply wp_attempt
      apply (keeps_outside_fillStage p devices).with
      apply wp_fillStage p devices (by simp [w₁])
      · intro id w' hfresh hused hholds hexact hout
        have hsub : w.used ⊆ w'.used := by
          rw [hused]
          exact fun u hu => List.mem_cons_of_mem _ hu
        exact wp_pure (hok _ w' (hstaged w' hout hsub) hfresh (by rw [hused]; simp) hholds
          hexact)
      · -- a stage that could not be filled is removed
        intro err w' hused hout
        apply wp_bind
        apply wp_undoing
        apply wp_ignore
        have hpart : ∀ keeps, Staged n w (w'.partlyRemoved (.stage n) keeps) := fun keeps =>
          hstaged _ (((ignores_outside n).dir w' _ _ rfl).trans hout) hused
        apply wp_removeAll
        · exact fun hc keeps => hcrash _ (mayCrash_undone.mp hc) (.inr ⟨n, hpart keeps⟩)
        · exact fun hf keeps => wp_fail (herr n _ _ (hpart keeps) fun h => absurd hf h)
        · refine wp_fail (herr n _ _ (hstaged _ ?_ hused) fun _ => ⟨?_, ?_⟩)
          · have h := ignores_outside n
            exact ((h.erased _ n rfl).trans (h.dir w' _ none rfl)).trans hout
          · simp [dirs_removed]
          · simp [World.removed, AList.mem_erase]
      · exact fun w' hc hused hout => hcrash w' hc (.inr ⟨n, hstaged w' hout hused⟩)

end Tor

end Torkitten
