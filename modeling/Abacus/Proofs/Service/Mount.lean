import Mathlib
import Abacus.Proofs.Service.Failure

/-!
# The static site beside the endpoints

* `Service.answer_of_fits`, `Service.answer_of_site`: the answer to a request that fits an endpoint,
  and to one for the site.
* `site_never_shadows`: a static site changes nothing about the former.
-/

namespace Abacus

namespace Service

variable {r : Request}

/-- A request that fits an endpoint is answered by it. -/
theorem answer_of_fits (s : Service) {e : Endpoint} (hpath : e.hasPath r.path = true)
    (hmethod : r.method = e.method) :
    s.answer r = Interruption.conclude r (s.endpointAnswer e r) := by
  rw [answer, outcome, s.route?_of_fits hpath hmethod]
  rfl

/-- A request that fits no endpoint goes to the site, if there is one that its path belongs to. -/
theorem answer_of_site (s : Service) (hfits : ¬r.Fits) {folder : Place}
    (hfolder : s.folder? = some folder) (howns : Site.owns r.path = true) :
    s.answer r = Interruption.conclude r (Site.answer s.files folder r) := by
  rw [answer, outcome, s.route?_of_not_fits hfits, hfolder, Option.filter_some, if_pos howns]
  rfl

/-- What an endpoint answers depends on the depth limit and on the evaluation, not on files. -/
theorem endpointAnswer_congr {s t : Service} (hdepth : s.settings.depth = t.settings.depth)
    (hevaluate : s.evaluate = t.evaluate) (e : Endpoint) (r : Request) :
    s.endpointAnswer e r = t.endpointAnswer e r := by
  cases e with
  | direct op => rfl
  | calculate => rw [endpointAnswer, endpointAnswer, hdepth, hevaluate]
  | index => rfl

end Service

/-- **A static site shadows no endpoint.** Let two services have the same depth limit and the same
evaluation. One of them may serve a folder as its site, whatever is in it. A request with the method
and the path of an endpoint gets the same response from both and leaves the same records, those of
the endpoint. Any other request is for the site, if its path belongs to it. -/
theorem site_never_shadows {mounted bare : Settings} (hdepth : mounted.depth = bare.depth)
    (files others : Files) (evaluate : Evaluator) (r : Request) :
    let site : Service := ⟨mounted, files, evaluate⟩
    let plain : Service := ⟨bare, others, evaluate⟩
    (∀ e ∈ Endpoint.all, e.hasPath r.path = true → r.method = e.method →
      site.answer r = plain.answer r ∧
        plain.answer r = Interruption.conclude r (plain.endpointAnswer e r)) ∧
      ∀ folder, ¬r.Fits → site.folder? = some folder → Site.owns r.path = true →
        site.answer r = Interruption.conclude r (Site.answer files folder r) := by
  intro site plain
  refine ⟨fun e _ hpath hmethod => ?_, fun folder hfits hfolder howns =>
    site.answer_of_site hfits hfolder howns⟩
  have hsame := Service.endpointAnswer_congr (s := site) (t := plain) hdepth rfl e r
  rw [site.answer_of_fits hpath hmethod, plain.answer_of_fits hpath hmethod, hsame]
  exact ⟨rfl, rfl⟩

/-- A folder with a file at the path of an endpoint and a page for what is not there: the endpoint
refuses operands that are none, and the page is for another path. -/
theorem site_never_shadows_own_page :
    let folder : Place := [("site" : Text)]
    let page : Bytes := Utf8.encodeLone "gone"
    let files : Files :=
      ⟨[], [(folder, .directory), (folder ++ [("api" : Text)], .directory),
        (folder ++ [("api" : Text), "add"], .file (.bytes (Utf8.encodeLone "7"))),
        (folder ++ [("404.html" : Text)], .file (.bytes page))]⟩
    let mounted : Settings := { Settings.standard with staticFolder := some (Path.ofText "site") }
    let site : Service := ⟨mounted, files, Calculation.evaluator⟩
    let plain : Service := ⟨.standard, Files.empty, Calculation.evaluator⟩
    let asked : Request := ⟨"GET", "/api/add", Utf8.encodeLone "v1=x", []⟩
    let other : Request := ⟨"GET", "/api/none", [], []⟩
    mounted.depth = Settings.standard.depth ∧ site.folder? = some folder ∧
      (Endpoint.direct .add).hasPath asked.path = true ∧
      site.answer asked = plain.answer asked ∧ (site.answer asked).1.status = 400 ∧
      ¬other.Fits ∧ (site.answer other).1 = ⟨404, .other, page, none⟩ := by
  intro folder page files mounted site plain asked other
  have hfolder : site.folder? = some folder := by decide +kernel
  have hpath : (Endpoint.direct .add).hasPath asked.path = true := by decide +kernel
  have hfits : ¬other.Fits := by
    unfold Request.Fits
    decide +kernel
  have hall := @site_never_shadows mounted .standard rfl files Files.empty Calculation.evaluator
  obtain ⟨hasked, -⟩ := hall asked
  obtain ⟨-, hother⟩ := hall other
  obtain ⟨hsame, hanswer⟩ := hasked (.direct .add) (Endpoint.mem_all _) hpath rfl
  refine ⟨rfl, hfolder, hpath, hsame, ?_, hfits, ?_⟩
  · rw [hsame]
    decide +kernel
  · rw [hother folder hfits hfolder (by decide +kernel)]
    decide +kernel

end Abacus
