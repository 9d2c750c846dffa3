import AiAgentsSwd.CodeGen.Template

/-!
# CodeGen.Templates — the templates of the development agent

The four Python templates of `development-agent/src/code_generator.py`, as the source writes them,
with the literals set apart from the code between them.
-/

namespace AiAgentsSwd.CodeGen

section Templates

instance : Coe String Piece := ⟨.text⟩

def taskId : Piece := .hole .taskId

def slug : Piece := .hole .slug

/-- `{desc or "(no description provided)"}` -/
def described : Piece := .hole .described

/-- `_api_template` -/
def apiTemplate : Template := [
  (.doc ["Stage 28 — deterministic demo API for task ``", taskId, "``.\n\n",
     "Generated by the development-agent. No LLM, no real network IO.\n",
     "Lives under ``apps/demo-generated/`` and is **only** intended\n",
     "as a controlled workspace artifact — it is NOT mounted in the\n", "production stack.\n"],
    ["\n\nfrom __future__ import annotations\n\n",
     "from dataclasses import dataclass\n\nTASK_ID = "]),
  (.repr .taskId, ["\nREQUEST_TYPE = "]),
  (.repr .requestType, ["\nPRODUCTION_EXECUTED = False\nGENERATED_BY = "]),
  (.quoted ["development-agent"], ["\nGENERATOR_MODE = "]),
  (.quoted ["deterministic_template"], ["\nORIGINAL_DESCRIPTION = "]),
  (.doc [described], ["\n\n\n@dataclass(frozen=True)\nclass HealthResponse:\n    "]),
  (.doc ["Minimal payload returned by :func:`handle_health`."],
    ["\n\n    status: str\n    task_id: str\n    mock: bool = True\n\n\n",
     "def handle_health() -> HealthResponse:\n    "]),
  (.doc ["Return a deterministic healthz payload for the demo API."],
    ["\n    return HealthResponse(status="]),
  (.quoted ["ok"], [", task_id="]),
  (.repr .taskId, [")\n\n\ndef handle_", slug, "(input_value: str = "]),
  (.quoted [], [") -> dict[str, str]:\n    "]),
  (.doc ["Echo ``input_value`` back as a deterministic payload.\n\n",
     "    The platform has no LLM in the loop at this stage — the\n",
     "    generated API is intentionally trivial and exists only so\n",
     "    the controlled workspace + PR draft pipeline has\n",
     "    something to validate end to end.\n    "],
    ["\n    return \x7b\n        "]),
  (.quoted ["task_id"], [": "]),
  (.repr .taskId, [",\n        "]),
  (.quoted ["echo"], [": input_value,\n        "]),
  (.quoted ["mock"], [": "]),
  (.quoted ["true"], [",\n    \x7d\n"])]

/-- `_api_test_template` -/
def apiTestTemplate : Template := [
  (.doc ["Stage 28 — generated test for the demo API of task ``", taskId, "``.\n"],
    ["\n\nimport importlib.util\nfrom pathlib import Path\n\n\n", "def _load_demo_module():\n",
     "    path = Path(__file__).resolve().parents[2] / "]),
  (.quoted ["apps"], [" / "]),
  (.quoted ["demo-generated"], [" / "]),
  (.quoted [slug, "_api.py"], ["\n    spec = importlib.util.spec_from_file_location("]),
  (.quoted [slug, "_api"],
    [", path)\n", "    assert spec is not None and spec.loader is not None\n",
     "    module = importlib.util.module_from_spec(spec)\n",
     "    spec.loader.exec_module(module)\n    return module\n\n\n",
     "def test_demo_api_task_id_matches_", slug, "():\n    module = _load_demo_module()\n",
     "    assert module.TASK_ID == "]),
  (.repr .taskId,
    ["\n    assert module.PRODUCTION_EXECUTED is False\n",
     "    assert module.GENERATOR_MODE == "]),
  (.quoted ["deterministic_template"],
    ["\n\n\ndef test_demo_api_handle_health_is_deterministic_", slug,
     "():\n    module = _load_demo_module()\n", "    response = module.handle_health()\n",
     "    assert response.status == "]),
  (.quoted ["ok"], ["\n    assert response.task_id == "]),
  (.repr .taskId,
    ["\n    assert response.mock is True\n\n\n", "def test_demo_api_echo_payload_for_", slug,
     "():\n    module = _load_demo_module()\n", "    payload = module.handle_", slug,
     "(input_value="]),
  (.quoted ["ping"], [")\n    assert payload["]),
  (.quoted ["task_id"], ["] == "]),
  (.repr .taskId, ["\n    assert payload["]),
  (.quoted ["echo"], ["] == "]),
  (.quoted ["ping"], ["\n    assert payload["]),
  (.quoted ["mock"], ["] == "]),
  (.quoted ["true"], ["\n"])]

/-- `_utility_template` -/
def utilityTemplate : Template := [
  (.doc ["Stage 28 — deterministic helper utility for task ``", taskId, "``.\n\n",
     "Generated by the development-agent. No LLM, no real IO.\n",
     "Lives under ``apps/demo-generated/`` and exists only so the\n",
     "controlled workspace + PR draft pipeline has something to\n", "validate end to end.\n"],
    ["\n\nfrom __future__ import annotations\n\nTASK_ID = "]),
  (.repr .taskId, ["\nREQUEST_TYPE = "]),
  (.repr .requestType, ["\nPRODUCTION_EXECUTED = False\nGENERATED_BY = "]),
  (.quoted ["development-agent"], ["\nGENERATOR_MODE = "]),
  (.quoted ["deterministic_template"], ["\nORIGINAL_DESCRIPTION = "]),
  (.doc [described], ["\n\n\ndef helper_", slug, "(value: str) -> str:\n    "]),
  (.doc ["Return ``value`` stripped and lowercased.\n\n",
     "    Trivial by design — the deterministic template is only meant\n",
     "    to give the workspace + PR draft pipeline a non-empty diff\n",
     "    to validate. A human reviewer must replace the body with\n",
     "    the real helper before this becomes a real PR.\n    "],
    ["\n    return (value or "]),
  (.quoted [],
    [").strip().lower()\n\n\ndef helper_", slug, "_count(values: list[str]) -> int:\n    "]),
  (.doc ["Count non-empty entries in ``values``."],
    ["\n    return sum(1 for v in values if (v or "]),
  (.quoted [], [").strip())\n"])]

/-- `_utility_test_template` -/
def utilityTestTemplate : Template := [
  (.doc ["Stage 28 — generated test for the helper utility of task ``", taskId, "``.\n"],
    ["\n\nimport importlib.util\nfrom pathlib import Path\n\n\n", "def _load_helper_module():\n",
     "    path = Path(__file__).resolve().parents[2] / "]),
  (.quoted ["apps"], [" / "]),
  (.quoted ["demo-generated"], [" / "]),
  (.quoted [slug, "_utility.py"], ["\n    spec = importlib.util.spec_from_file_location("]),
  (.quoted [slug, "_utility"],
    [", path)\n", "    assert spec is not None and spec.loader is not None\n",
     "    module = importlib.util.module_from_spec(spec)\n",
     "    spec.loader.exec_module(module)\n    return module\n\n\n",
     "def test_helper_utility_metadata_", slug, "():\n    module = _load_helper_module()\n",
     "    assert module.TASK_ID == "]),
  (.repr .taskId,
    ["\n    assert module.PRODUCTION_EXECUTED is False\n",
     "    assert module.GENERATOR_MODE == "]),
  (.quoted ["deterministic_template"],
    ["\n\n\ndef test_helper_strips_and_lowercases_", slug,
     "():\n    module = _load_helper_module()\n", "    assert module.helper_", slug, "("]),
  (.quoted ["  Hello  "], [") == "]),
  (.quoted ["hello"], ["\n    assert module.helper_", slug, "("]),
  (.quoted [], [") == "]),
  (.quoted [],
    ["\n\n\ndef test_helper_counts_non_empty_", slug,
     "():\n    module = _load_helper_module()\n", "    assert module.helper_", slug, "_count(["]),
  (.quoted ["a"], [", "]),
  (.quoted [], [", "]),
  (.quoted [" "], [", "]),
  (.quoted ["b"], ["]) == 2\n"])]

end Templates

/-! ## What they are made of -/

section Check

-- a literal is taken apart as the list of its letters, which is what it is by definition

theorem text_all {p : Char → Bool} {letters : List Char} (h : letters.all p) :
    (String.ofList letters).toList.all p := by
  rw [String.toList_ofList]
  exact h

theorem text_head {letters : List Char} {c : Char} (h : letters.head? = some c) :
    (String.ofList letters).toList.head? = some c := by
  rw [String.toList_ofList]
  exact h

attribute [local simp] Template.check Piece.plain Piece.solid Piece.tame Lit.tame Lit.titled
  Lit.describes slug taskId described

theorem check_apiTemplate : apiTemplate.check := by
  simp [-String.reduceToList, -List.all_eq_true, apiTemplate]
  and_intros
  all_goals first
    | refine text_all ?_; decide +kernel
    | refine text_head ?_; rfl

theorem check_apiTestTemplate : apiTestTemplate.check := by
  simp [-String.reduceToList, -List.all_eq_true, apiTestTemplate]
  and_intros
  all_goals first
    | refine text_all ?_; decide +kernel
    | refine text_head ?_; rfl

theorem check_utilityTemplate : utilityTemplate.check := by
  simp [-String.reduceToList, -List.all_eq_true, utilityTemplate]
  and_intros
  all_goals first
    | refine text_all ?_; decide +kernel
    | refine text_head ?_; rfl

theorem check_utilityTestTemplate : utilityTestTemplate.check := by
  simp [-String.reduceToList, -List.all_eq_true, utilityTestTemplate]
  and_intros
  all_goals first
    | refine text_all ?_; decide +kernel
    | refine text_head ?_; rfl

end Check

end AiAgentsSwd.CodeGen
