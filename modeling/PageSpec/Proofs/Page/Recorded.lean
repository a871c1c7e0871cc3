import PageSpec.Proofs.Browser.Request
import PageSpec.Proofs.Page.Unmoved
/-!
The record of a page in memory. It holds one call for each request that does something; looking at the
page is not recorded.
-/
namespace PageSpec.Page
open Browser (Request Recorder ask)

/-- What is recorded of a request. -/
def callsOf : Request → List Call
  | .start => [.started]
  | .navigate url => [.navigate url]
  | .click l force => [.click l force]
  | .hover l => [.hover l]
  | .fill l text => [.fill l text]
  | .typeText l text _ => [.typeText l text]
  | .press l chord => [.press l chord]
  | .setChecked l checked => [.setChecked l checked]
  | .selectOptions l choice => [.select l choice]
  | .attachFiles l paths => [.attach l paths.length]
  | .scrollIntoView l => [.scrollIntoView l]
  | .scrollPage goal => [.scrollPage goal]
  | .screenshot l fullPage => [.screenshot l fullPage]
  | .awaitResponse m _ => [.await m]
  | .route rule => [.route rule.source]
  | .unroute source => [.unroute source]
  | .close => [.closed]
  | .currentUrl | .count _ | .textContent _ | .inputValue _ | .attributeOf _ _ | .tagName _ | .fileCount _
  | .isVisible _ | .pageText => []

theorem history_ask (q : Request) (p : Page) : (ask q p).history = p.history ++ callsOf q := by
  have looked {α : Type} {a : Act Page α} (held : looking.Holds a) : (a p).2.history = p.history ++ [] := by
    have same : (a p).2 = p := held.1 p
    rw [same, List.append_nil]
  cases q with
  | start => exact (record_records .started).history p
  | close => exact (record_records .closed).history p
  | scrollPage goal => exact (record_records (.scrollPage goal)).history p
  | navigate url => exact (navigate_records url).history p
  | click l force => exact (click_records l force).history p
  | hover l => exact (hover_records l).history p
  | fill l text => exact (fill_records l text).history p
  | typeText l text delay => exact (typeText_records l text delay).history p
  | press l chord => exact (press_records l chord).history p
  | setChecked l checked => exact (setChecked_records l checked).history p
  | selectOptions l choice => exact (selectOptions_records l choice).history p
  | attachFiles l paths => exact (attachFiles_records l paths).history p
  | scrollIntoView l => exact (scrollIntoView_records l).history p
  | screenshot l fullPage => exact (screenshot_records l fullPage).history p
  | awaitResponse m timeout => exact (awaitResponse_records m timeout).history p
  | route rule => exact (route_records rule).history p
  | unroute source => exact (unroute_records source).history p
  | currentUrl => exact looked reads_still.currentUrl
  | pageText => exact looked reads_still.pageText
  | count l => exact looked (reads_still.count l)
  | textContent l => exact looked (reads_still.textContent l)
  | inputValue l => exact looked (reads_still.inputValue l)
  | attributeOf l name => exact looked (reads_still.attributeOf l name)
  | tagName l => exact looked (reads_still.tagName l)
  | fileCount l => exact looked (reads_still.fileCount l)
  | isVisible l => exact looked (reads_still.isVisible l)

/-- The record of a page in memory is one of what it is asked. -/
def recorder : Recorder Page Call where
  log p := p.history
  calls := callsOf
  records := history_ask
  opened := .started
  closed := .closed
  opens := rfl
  closes := rfl
  differ := nofun
  apart q inside := by cases q <;> simp_all [Request.inner, callsOf]

end PageSpec.Page
