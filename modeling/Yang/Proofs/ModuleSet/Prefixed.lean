import Yang.Proofs.Gather.Bindings
import Yang.Proofs.Gather.Names
import Yang.Proofs.ModuleSet.Extended

/-!
This module contains the prefixes of the documents of processed modules: every context of a scope was made at some
point of the gathering, and when nothing is wrong its table is the one that the document itself has of its imports.
-/

namespace Yang

namespace Gathering

variable {files : Files}

/--
Whether the imports of a context in the scope of a module were bound at some point of a gathering.
-/
def Placed (files : Files) (start final : Gathering) (owner : String) (context : Context) : Prop :=
  ∃ known needed before after,
    bindImports files known (.first owner context.document) before context.document.body.imports
        = (context, needed, after)
      ∧ Steps files start before ∧ Steps files after final

theorem Placed.later {start start' final final' : Gathering} {owner : String} {context : Context}
    (h : Placed files start final owner context) (hstart : Steps files start' start)
    (hfinal : Steps files final final') : Placed files start' final' owner context := by
  obtain ⟨known, needed, before, after, hbound, hbefore, hafter⟩ := h
  exact ⟨known, needed, before, after, hbound, hstart.trans hbefore, hafter.trans hfinal⟩

theorem contextualise_placed (known : List String) (owner : String)
    (typedefs : Table Typedef) (groupings : Table Grouping) {g : Gathering}
    {documents : List Document} (hd : ∀ d ∈ documents, g.store.Loaded d) :
    let r := contextualise files known owner typedefs groupings g documents
    ∀ context ∈ r.1, Placed files g r.2.2 owner context := by
  induction documents generalizing typedefs groupings g with
  | nil => exact fun context hc => nomatch hc
  | cons document rest ih =>
    rw [List.forall_mem_cons] at hd
    have hw : ∀ i ∈ document.body.imports, g.store.Wanted i.moduleName :=
      fun i hi => ⟨document, hd.1, .inr ⟨i, hi, rfl⟩⟩
    unfold contextualise
    dsimp only
    have hbound := steps_bindImports files known (.first owner document) hw
    have hdocument := (bindImports_first files known owner document g document.body.imports).1
    generalize heq : bindImports files known (.first owner document) g document.body.imports = bound
      at hbound hdocument ⊢
    obtain ⟨context, needed, g₁⟩ := bound
    dsimp only at hbound hdocument ⊢
    have htypedefs := steps_enterAll files Typedef context typedefs g₁ document.body.typedefs
    generalize enterAll Typedef context typedefs g₁ document.body.typedefs = checked at htypedefs ⊢
    obtain ⟨typedefs', g₂⟩ := checked
    dsimp only at htypedefs ⊢
    have hgroupings := steps_enterAll files Grouping context groupings g₂ document.body.groupings
    generalize enterAll Grouping context groupings g₂ document.body.groupings = checked at hgroupings ⊢
    obtain ⟨groupings', g₃⟩ := checked
    dsimp only at hgroupings ⊢
    have hchecked : Steps files g₁ g₃ := htypedefs.trans hgroupings
    have hsteps : Steps files g g₃ := hbound.trans hchecked
    have hloaded : ∀ d ∈ rest, g₃.store.Loaded d := fun d hmem => hsteps.extends.loaded (hd.2 d hmem)
    have hrest := steps_contextualise files known owner typedefs' groupings' hloaded
    rw [List.forall_mem_cons]
    constructor
    · refine ⟨known, needed, g, g₁, ?_, .refl, hchecked.trans hrest⟩
      rw [show context.document = document from congrArg Context.document hdocument]
      exact heq
    · exact fun c hc => (ih typedefs' groupings' hloaded c hc).later hsteps .refl

theorem scope_placed (known : List String) {main : Module} {g : Gathering} (hm : main ∈ g.store.modules) :
    let r := scope files known main g
    ∀ context ∈ r.1.contexts, Placed files g r.2.2 main.name context := by
  unfold scope
  dsimp only
  obtain ⟨hclosed, hloaded⟩ := steps_closure_main files hm
  generalize closure files main.name [] g [.main main] = closed at hclosed hloaded ⊢
  obtain ⟨documents, g₁⟩ := closed
  dsimp only at hclosed hloaded ⊢
  intro context hc
  apply (contextualise_placed known main.name [] [] hloaded context hc).later hclosed
  exact .single (.note _ _ _)

theorem Runs.placed {scopes final : Scopes} {needed : List String} {g g' : Gathering}
    (h : Runs files scopes needed g final g') {start : Gathering} (hstart : Steps files start g)
    (hs : ∀ scope ∈ scopes, ∀ context ∈ scope.contexts, Placed files start g scope.main.name context) :
    ∀ scope ∈ final, ∀ context ∈ scope.contexts, Placed files start g' scope.main.name context := by
  induction h with
  | done => exact hs
  | @scope scopes final needed rest main g g' hnext _ ih =>
    have hmain := (next_spec hnext).1
    have hsteps := steps_scope files (scopedNames scopes) hmain
    apply ih (hstart.trans hsteps)
    intro s hmem context hc
    rcases List.mem_append.1 hmem with hmem | hmem
    · exact (hs s hmem context hc).later .refl hsteps
    · rw [List.mem_singleton.1 hmem] at hc ⊢
      exact (scope_placed _ hmain context hc).later hstart .refl

end Gathering

namespace ModuleSet

open Gathering

end ModuleSet

end Yang
