set_option autoImplicit false

/-!
# The style sheet

How the pages of every site look.
-/

namespace Gatehouse

def styleSheet : String :=
  "\n".intercalate
    ["body \x7b",
      "    font-family: system-ui, sans-serif;",
      "    background: #f4f4f4;",
      "    margin: 0;",
      "\x7d",
      "",
      ".container \x7b",
      "    max-width: 48rem;",
      "    margin: 2rem auto;",
      "    padding: 1.5rem;",
      "    background: #fff;",
      "    border-radius: 6px;",
      "\x7d",
      "",
      "form label \x7b",
      "    display: block;",
      "    margin-bottom: 0.75rem;",
      "\x7d",
      "",
      ".error,",
      ".flash-error \x7b",
      "    color: #b00020;",
      "\x7d",
      "",
      ".flash \x7b",
      "    padding: 0.5rem 0.75rem;",
      "    margin-bottom: 0.75rem;",
      "    border-radius: 4px;",
      "    background: #eef;",
      "\x7d",
      "",
      ".flash-success \x7b",
      "    background: #e6f4ea;",
      "\x7d",
      "",
      ".flash-info \x7b",
      "    background: #e8f0fe;",
      "\x7d",
      "",
      ".toolbar,",
      ".status \x7b",
      "    display: flex;",
      "    justify-content: space-between;",
      "    gap: 1rem;",
      "    align-items: center;",
      "\x7d",
      "",
      ".game-board \x7b",
      "    display: grid;",
      "    gap: 2px;",
      "    margin: 1rem 0;",
      "    width: max-content;",
      "\x7d",
      "",
      ".cell \x7b",
      "    width: 2rem;",
      "    height: 2rem;",
      "    display: flex;",
      "    align-items: center;",
      "    justify-content: center;",
      "    background: #bbb;",
      "    cursor: pointer;",
      "    user-select: none;",
      "\x7d",
      "",
      ".cell.revealed \x7b",
      "    background: #eee;",
      "    cursor: default;",
      "\x7d",
      "",
      ".cell.mine \x7b",
      "    background: #e57373;",
      "\x7d",
      "",
      ".cell.flag::after \x7b",
      "    content: \"\\2691\";",
      "\x7d",
      "",
      ".hidden \x7b",
      "    display: none;",
      "\x7d",
      "",
      ".todo.completed h2 \x7b",
      "    text-decoration: line-through;",
      "\x7d",
      ""]

end Gatehouse
