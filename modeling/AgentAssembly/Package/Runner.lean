import AgentAssembly.Identifier
import AgentAssembly.Package.Source
import AgentAssembly.Project

/-!
The console runner of a package: a loop that reads a line and prints what the root agent answers.
-/

namespace AgentAssembly.Runner

open Source Identifier

def packageName (p : Project) : String := moduleName p.name

def lines (p : Project) : List String :=
  [docstring "Chat with the " p.name
     (" agent system from a terminal.\n\nRun from the directory containing the package:\n\n" ++
       "    python -m " ++ packageName p ++ ".quick_start\n"),
   "",
   "import asyncio",
   "",
   "from google.adk.runners import InMemoryRunner",
   "from google.genai import types",
   "",
   "from .agent import root_agent",
   "",
   "APP_NAME = " ++ literal (packageName p),
   "USER_ID = \"local_user\"",
   "",
   "",
   "async def main() -> None:",
   "    runner = InMemoryRunner(agent=root_agent, app_name=APP_NAME)",
   "    session = await runner.session_service.create_session(",
   "        app_name=APP_NAME, user_id=USER_ID",
   "    )",
   "    print(\"Type 'exit' to quit.\")",
   "    while True:",
   "        text = input(\"> \").strip()",
   "        if text.lower() in \x7b\"exit\", \"quit\"\x7d:",
   "            break",
   "        if not text:",
   "            continue",
   "        message = types.Content(role=\"user\", parts=[types.Part(text=text)])",
   "        async for event in runner.run_async(",
   "            user_id=USER_ID, session_id=session.id, new_message=message",
   "        ):",
   "            if event.content and event.content.parts:",
   "                for part in event.content.parts:",
   "                    if part.text:",
   "                        print(part.text)",
   "",
   "",
   "if __name__ == \"__main__\":",
   "    asyncio.run(main())"]

end AgentAssembly.Runner
