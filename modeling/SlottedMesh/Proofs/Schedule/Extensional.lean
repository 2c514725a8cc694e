import SlottedMesh.Proofs.Schedule.Rework

/-!
# Schedules that show the same

Whatever a schedule keeps is seen from outside: two tables with the same view are equal
(`Table.ext`), and so are two well-formed schedules with the same slotframes, the same links and the
same next handle (`WellFormed.ext`).  Therefore what works make of links says all about the works:

* `Reworked.eq`: two works that make the same of the links at the same places give one schedule.
* `Reworked.comp`: two works on the same places, one after the other, are one work.
-/

namespace SlottedMesh

/-- Tables with the same view are equal. -/
theorem Table.ext {α : Type} {t t' : Table α} (h : ∀ k, t.get? k = t'.get? k) : t = t' := by
  obtain ⟨es, hes⟩ := t
  obtain ⟨es', hes'⟩ := t'
  have hmem : ∀ e, e ∈ es ↔ e ∈ es' := by
    rintro ⟨k, v⟩
    have hview : (⟨es, hes⟩ : Table α).get? k = some v ↔
        (⟨es', hes'⟩ : Table α).get? k = some v := by
      rw [h k]
    simpa only [get?_eq_some_iff] using hview
  have hnodup {xs : List (UInt16 × α)} (hxs : xs.Pairwise (·.1 < ·.1)) : xs.Nodup :=
    hxs.imp fun hlt heq => UInt16.ne_of_lt hlt (congrArg Prod.fst heq)
  have hperm : es.Perm es' := (List.perm_ext_iff_of_nodup (hnodup hes) (hnodup hes')).2 hmem
  have heq : es = es' := hperm.eq_of_pairwise
    (fun _ _ _ _ hlt hgt => absurd hgt (UInt16.lt_asymm hlt)) hes hes'
  subst heq
  rfl

/-- Slotframes that fit under the same id, and have the same length and the same links, are
equal. -/
theorem Slotframe.Fits.ext {f f' : Slotframe} {id : UInt16} (hf : f.Fits id) (hf' : f'.Fits id)
    (hlength : f.length = f'.length) (hlinks : ∀ t, f.links.get? t = f'.links.get? t) : f = f' := by
  have hdivisor : f.divisor = f'.divisor := by
    rw [hf.divisor_eq, hf'.divisor_eq]
    simp only [hlength]
  have hid : f.id = f'.id := hf.id_eq.trans hf'.id_eq.symm
  have hlinks : f.links = f'.links := Table.ext hlinks
  obtain ⟨i, d, ls⟩ := f
  obtain ⟨i', d', ls'⟩ := f'
  cases hid
  cases hdivisor
  cases hlinks
  rfl

namespace Schedule

variable {s s' s'' : Schedule} {place : UInt16 → UInt16 → Prop}
  {rework rework' : Link → Option Link}

/-- What a place shows is one of the links. -/
theorem mem_links {g t : UInt16} {l : Link} (hl : s.link? g t = some l) : l ∈ s.links := by
  obtain ⟨f, hf, hget⟩ := link?_eq_some_iff.1 hl
  exact List.mem_flatMap.2
    ⟨f, Table.mem_values_iff.2 ⟨g, hf⟩, Table.mem_values_iff.2 ⟨t, hget⟩⟩

/-- What has the same slotframes is had by the other in turn. -/
theorem SameFrames.symm (h : SameFrames s s') : SameFrames s' s where
  length?_eq g := (h.length?_eq g).symm
  maxFrames_eq := h.maxFrames_eq.symm
  maxLinks_eq := h.maxLinks_eq.symm

/-- Well-formed schedules with the same slotframes, the same next handle and the same links are
equal. -/
theorem WellFormed.ext (hs : s.WellFormed) (hs' : s'.WellFormed) (hframes : SameFrames s s')
    (hhandle : s'.nextHandle = s.nextHandle) (hlink : ∀ g t, s'.link? g t = s.link? g t) :
    s' = s := by
  have htable : s'.frames = s.frames := by
    refine Table.ext fun id => ?_
    show s'.frame? id = s.frame? id
    have hlength := hframes.length?_eq id
    unfold length? at hlength
    rcases hf : s.frame? id with _ | f <;> rcases hf' : s'.frame? id with _ | f'
    · rfl
    · rw [hf, hf'] at hlength
      cases hlength
    · rw [hf, hf'] at hlength
      cases hlength
    · rw [hf, hf'] at hlength
      have hlinks (t : UInt16) : f'.links.get? t = f.links.get? t := by
        rw [← link?_eq_get? hf', ← link?_eq_get? hf, hlink]
      rw [(hs'.fits hf').ext (hs.fits hf) (Option.some.inj hlength) hlinks]
  have hcount : s'.linkCount = s.linkCount := by
    rw [hs'.linkCount_eq, hs.linkCount_eq, links, links, htable]
  have hmaxFrames := hframes.maxFrames_eq
  have hmaxLinks := hframes.maxLinks_eq
  obtain ⟨frames, maxFrames, maxLinks, linkCount, nextHandle⟩ := s
  obtain ⟨frames', maxFrames', maxLinks', linkCount', nextHandle'⟩ := s'
  cases htable
  cases hmaxFrames
  cases hmaxLinks
  cases hcount
  cases hhandle
  rfl

/-- Two works that make the same of the links at the same places give one schedule. -/
theorem Reworked.eq (h : Reworked place rework s s') (h' : Reworked place rework s s'') :
    s' = s'' := by
  refine h'.wellFormed.ext h.wellFormed (h'.sameFrames.symm.trans h.sameFrames)
    (h.nextHandle_eq.trans h'.nextHandle_eq.symm) fun g t => ?_
  by_cases hplace : place g t
  · rw [h.link?_of hplace, h'.link?_of hplace]
  · rw [h.link?_of_not hplace, h'.link?_of_not hplace]

/-- Links that all stay as they are may be left alone. -/
theorem reworked_of_all_kept (hs : s.WellFormed)
    (hkept : ∀ g t l, place g t → s.link? g t = some l → rework l = some l) :
    Reworked place rework s s where
  wellFormed := hs
  sameFrames := .refl s
  nextHandle_eq := rfl
  link?_of {g t} hplace := by
    rcases hl : s.link? g t with _ | l
    · rfl
    · exact (hkept g t l hplace hl).symm
  link?_of_not _ := rfl

/-- Two works on the same places, one after the other, are one work. -/
theorem Reworked.comp (h : Reworked place rework s s') (h' : Reworked place rework' s' s'') :
    Reworked place (fun l => (rework l).bind rework') s s'' where
  wellFormed := h'.wellFormed
  sameFrames := h.sameFrames.trans h'.sameFrames
  nextHandle_eq := h'.nextHandle_eq.trans h.nextHandle_eq
  link?_of hplace := by rw [h'.link?_of hplace, h.link?_of hplace, Option.bind_assoc]
  link?_of_not hplace := by rw [h'.link?_of_not hplace, h.link?_of_not hplace]

end Schedule

end SlottedMesh
